import FsExt.Attr.GetAttr
import FsExt.Attr.ListAttrs
import FsExt.Sys.Heap

set_option autoImplicit false

namespace FsExt.Attr.Buffers

open Sys

inductive BufferOp where
  | malloc (size : Int)
  | realloc (buffer : Option Nat) (size : Nat)
  | free (buffer : Option Nat)
  | use (buffer : Option Nat)
  | xattr (buffers : List (Option Nat))
  | queue

abbrev BufferAnswer : BufferOp → Type
  | .malloc _ => Option Nat
  | .realloc _ _ => Option Nat
  | .free _ => Unit
  | .use _ => Unit
  | .xattr _ => XattrResult
  | .queue => Status

abbrev BufferProgram (α : Type) := Program BufferOp BufferAnswer α

def malloc (size : Int) : BufferProgram (Option Nat) := Program.perform (BufferOp.malloc size)

def realloc (buffer : Option Nat) (size : Nat) : BufferProgram (Option Nat) :=
  Program.perform (BufferOp.realloc buffer size)

def free (buffer : Option Nat) : BufferProgram Unit := Program.perform (BufferOp.free buffer)

def use (buffer : Option Nat) : BufferProgram Unit := Program.perform (BufferOp.use buffer)

def xattr (buffers : List (Option Nat)) : BufferProgram XattrResult := Program.perform (BufferOp.xattr buffers)

def queue : BufferProgram Status := Program.perform BufferOp.queue

-- `strdup` does not run out of memory.
def strdup (source : Option Nat) (size : Nat) : BufferProgram (Option Nat) := do
  use source
  let copy ← malloc size
  use copy
  return copy

structure Buf where
  base : Option Nat
  len : Nat

def getAttr (platform : Platform) (name : Option Nat) (value : Buf) : BufferProgram (Status × Buf) := do
  let size ← xattr [name]
  if narrow size.res = -1 then
    return (sizeError platform size.errno, value)
  else
    let base ← malloc (narrow size.res)
    let content ← xattr [name, base]
    return (if narrow content.res = -1 then translate content.errno else .ok (), ⟨base, (narrow size.res % 2 ^ 32).toNat⟩)

-- What the process does not survive: a null pointer is read.
def memcpy (value : Buf) : BufferProgram (Option Unit) :=
  if value.base = none ∧ value.len ≠ 0 then return none
  else do
    use value.base
    return some ()

inductive Received where
  | value
  | null
  | names (list : List CString)
  | error (err : UvError)

def onGetAttr (result : Status) (value : Buf) : BufferProgram (Option Received) :=
  match result with
  | .error .ENODATA => return some .null
  | .error err => return some (.error err)
  | .ok () => do
      match ← memcpy value with
      | none => return none
      | some () => return some .value

def getAttrAfterWork (copy : Option Nat) (result : Status) (value : Buf) : BufferProgram (Option Received) := do
  match ← onGetAttr result value with
  | none => return none
  | some received =>
      free value.base
      free copy
      return some received

def jsGetAttr (platform : Platform) (nameLen : Nat) : BufferProgram (Option Received) := do
  let name ← malloc (nameLen + 1 : Nat)
  use name
  let copy ← strdup name (nameLen + 1)
  match ← queue with
  | .error err =>
      free copy
      free name
      return some (.error err)
  | .ok () =>
      free name
      let (result, value) ← getAttr platform copy ⟨none, 0⟩
      getAttrAfterWork copy result value

def returnAttr (result : Status) (value : Buf) : BufferProgram (Option Received) :=
  match result with
  | .error .ENODATA => return some .null
  | .error err => do
      free value.base
      return some (.error err)
  | .ok () => do
      match ← memcpy value with
      | none => return none
      | some () =>
          free value.base
          return some .value

def jsGetAttrSync (platform : Platform) (nameLen : Nat) : BufferProgram (Option Received) := do
  let name ← malloc (nameLen + 1 : Nat)
  use name
  let (result, value) ← getAttr platform name ⟨none, 0⟩
  free name
  returnAttr result value

structure Names where
  base : Option Nat
  table : NameTable

def fresh (junk : Nat → UInt8) (size : Nat) : Block := (List.range size).map fun k => .byte (junk k)

-- `fs_ext__list_attrs` from its second call on. None: a scan leaves the buffer
-- or reads a null pointer.
def tabulate (junk : Nat → UInt8) (base : Option Nat) (length : Nat) (list : XattrResult) :
    BufferProgram (Option (Status × Names)) :=
  let block := base.map fun _ => overwrite (fresh junk length) 0 (bytes (list.written.take length))
  if narrow list.res = -1 then
    return some (translate list.errno, ⟨base, ⟨block, length⟩⟩)
  else
    match buildTable (block.getD []) length with
    | none => return none
    | some table => do
        use base
        let grown ← realloc base (table.length * pointerSize + length)
        use grown
        return some (.ok (), ⟨grown, table⟩)

def listAttrs (junk : Nat → UInt8) (names : Names) : BufferProgram (Option (Status × Names)) := do
  let size ← xattr []
  if narrow size.res = -1 then
    return some (translate size.errno, names)
  else
    let base ← malloc (narrow size.res)
    let list ← xattr [base]
    tabulate junk base (narrow size.res % 2 ^ 64).toNat list

def readNames (names : Names) : BufferProgram (Option Received) := do
  use names.base
  match names.table.listed with
  | none => return none
  | some list => return some (.names list)

def onListAttrs (result : Status) (names : Names) : BufferProgram (Option Received) :=
  match result with
  | .error err => return some (.error err)
  | .ok () => readNames names

def listAttrsAfterWork (result : Status) (names : Names) : BufferProgram (Option Received) := do
  match ← onListAttrs result names with
  | none => return none
  | some received =>
      free names.base
      return some received

def jsListAttrs (junk : Nat → UInt8) : BufferProgram (Option Received) := do
  match ← queue with
  | .error err => return some (.error err)
  | .ok () =>
      match ← listAttrs junk ⟨none, ⟨none, 0⟩⟩ with
      | none => return none
      | some (result, names) => listAttrsAfterWork result names

def returnAttrs (result : Status) (names : Names) : BufferProgram (Option Received) :=
  match result with
  | .error err => return some (.error err)
  | .ok () => do
      match ← readNames names with
      | none => return none
      | some received =>
          free names.base
          return some received

def jsListAttrsSync (junk : Nat → UInt8) : BufferProgram (Option Received) := do
  match ← listAttrs junk ⟨none, ⟨none, 0⟩⟩ with
  | none => return none
  | some (result, names) => returnAttrs result names

inductive AttrCall where
  | getAttr (nameLen : Nat)
  | getAttrSync (nameLen : Nat)
  | listAttrs
  | listAttrsSync

def AttrCall.program (platform : Platform) (junk : Nat → UInt8) : AttrCall → BufferProgram (Option Received)
  | .getAttr nameLen => jsGetAttr platform nameLen
  | .getAttrSync nameLen => jsGetAttrSync platform nameLen
  | .listAttrs => jsListAttrs junk
  | .listAttrsSync => jsListAttrsSync junk

-- Only a size that is negative, and so huge as a `size_t`, is refused. On Linux
-- `realloc` frees a buffer that is to have no bytes.
def machine (platform : Platform) (answers : Nat → XattrResult) (queued : Status) :
    Program.Handler BufferOp BufferAnswer (Heap × Nat)
  | .malloc size, (heap, calls) =>
      if size < 0 then (none, heap, calls) else (some heap.next, heap.allocate, calls)
  | .realloc buffer size, (heap, calls) =>
      let released := heap.release buffer
      if platform = .linux ∧ size = 0 ∧ buffer.isSome then (none, released, calls)
      else (some released.next, released.allocate, calls)
  | .free buffer, (heap, calls) => ((), heap.release buffer, calls)
  | .use buffer, (heap, calls) => ((), heap.touch buffer, calls)
  | .xattr buffers, (heap, calls) => (answers calls, buffers.foldl Heap.touch heap, calls + 1)
  | .queue, (heap, calls) => (queued, heap, calls)

def outcome (platform : Platform) (junk : Nat → UInt8) (answers : Nat → XattrResult) (queued : Status)
    (call : AttrCall) : Option Received × Heap × Nat :=
  Program.run (machine platform answers queued) (call.program platform junk) (Heap.empty, 0)

def Released (platform : Platform) (junk : Nat → UInt8) (answers : Nat → XattrResult) (queued : Status)
    (call : AttrCall) : Prop :=
  (outcome platform junk answers queued call).1 ≠ none → (outcome platform junk answers queued call).2.1.Clean

def Leaks (answers : Nat → XattrResult) : AttrCall → Prop
  | .getAttr _ | .listAttrs => False
  | .getAttrSync _ =>
      0 ≤ narrow (answers 0).res ∧ narrow (answers 1).res = -1 ∧ (answers 1).errno = some .ENODATA
  | .listAttrsSync =>
      0 ≤ narrow (answers 0).res ∧ narrow (answers 1).res = -1 ∧ (answers 1).errno ≠ none

section
variable (platform : Platform) (junk : Nat → UInt8) (answers : Nat → XattrResult) (queued : Status)
  (heap : Heap) (calls : Nat) (held : List Nat)

def gotten (next : Nat) (size content : XattrResult) : Status × Buf :=
  if narrow size.res = -1 then (sizeError platform size.errno, ⟨none, 0⟩)
  else (if narrow content.res = -1 then translate content.errno else .ok (),
    ⟨if narrow size.res < 0 then none else some next, (narrow size.res % 2 ^ 32).toNat⟩)

theorem run_get_attr (name : Option Nat) (owns : heap.Owns held) (named : ∀ b, name = some b → b ∈ held) :
    ∃ heap' calls', Program.run (machine platform answers queued) (getAttr platform name ⟨none, 0⟩) (heap, calls) =
        (gotten platform heap.next (answers calls) (answers (calls + 1)), heap', calls') ∧
      heap'.Owns ((gotten platform heap.next (answers calls) (answers (calls + 1))).2.base.toList ++ held) := by
  have read : heap.touch name = heap := Heap.touch_owned heap name held owns named
  by_cases failed : narrow (answers calls).res = -1
  · refine ⟨heap, calls + 1, ?_, by simpa [gotten, failed] using owns⟩
    simp [getAttr, xattr, machine, read, failed, gotten]
  by_cases negative : narrow (answers calls).res < 0
  · refine ⟨heap, calls + 2, ?_, by simpa [gotten, failed, negative] using owns⟩
    have nothing : heap.touch none = heap := rfl
    simp [getAttr, xattr, malloc, machine, read, nothing, failed, negative, gotten]
  · have owns' : heap.allocate.Owns (heap.next :: held) := Heap.owns_allocate heap held owns
    have read' : heap.allocate.touch name = heap.allocate :=
      Heap.touch_owned _ name _ owns' fun b here => .tail _ (named b here)
    have filled : heap.allocate.touch (some heap.next) = heap.allocate := Heap.touch_first _ (some heap.next) held owns'
    refine ⟨heap.allocate, calls + 2, ?_, by simpa [gotten, failed, negative] using owns'⟩
    simp [getAttr, xattr, malloc, machine, read, read', filled, failed, negative, gotten]

theorem run_memcpy (value : Buf) (owns : heap.Owns (value.base.toList ++ held)) :
    Program.run (machine platform answers queued) (memcpy value) (heap, calls) =
      (if value.base = none ∧ value.len ≠ 0 then none else some (), heap, calls) := by
  have read : heap.touch value.base = heap := Heap.touch_first heap value.base held owns
  rw [memcpy]
  split
  · rfl
  · simp [use, machine, read]

theorem run_on_get_attr (result : Status) (value : Buf) (owns : heap.Owns (value.base.toList ++ held)) :
    ∃ received, Program.run (machine platform answers queued) (onGetAttr result value) (heap, calls) =
      (received, heap, calls) := by
  have copied := run_memcpy platform answers queued heap calls held value owns
  cases result with
  | error err => cases err <;> exact ⟨_, rfl⟩
  | ok done =>
      rw [onGetAttr, Program.run_bind, copied]
      split
      · exact ⟨none, rfl⟩
      · exact ⟨some .value, rfl⟩

theorem run_get_attr_after_work (copy : Option Nat) (result : Status) (value : Buf)
    (owns : heap.Owns (value.base.toList ++ (copy.toList ++ held))) :
    ∃ received heap', Program.run (machine platform answers queued) (getAttrAfterWork copy result value) (heap, calls) =
      (received, heap', calls) ∧ (received ≠ none → heap'.Owns held) := by
  obtain ⟨received, shown⟩ := run_on_get_attr platform answers queued heap calls _ result value owns
  rw [getAttrAfterWork, Program.run_bind, shown]
  cases received with
  | none => exact ⟨none, heap, rfl, fun absent => absurd rfl absent⟩
  | some received =>
      exact ⟨some received, _, rfl, fun _ => Heap.owns_release _ copy held (Heap.owns_release heap _ _ owns)⟩

theorem run_malloc (size : Nat) :
    Program.run (machine platform answers queued) (malloc size) (heap, calls) =
      (some heap.next, heap.allocate, calls) := by
  have enough : ¬ (size : Int) < 0 := by omega
  simp [malloc, Program.perform, machine, enough]

theorem run_use (buffer : Option Nat) (owns : heap.Owns held) (owned : ∀ b, buffer = some b → b ∈ held) :
    Program.run (machine platform answers queued) (use buffer) (heap, calls) = ((), heap, calls) := by
  simp [use, Program.perform, machine, Heap.touch_owned heap buffer held owns owned]

theorem run_use_first (buffer : Option Nat) (owns : heap.Owns (buffer.toList ++ held)) :
    Program.run (machine platform answers queued) (use buffer) (heap, calls) = ((), heap, calls) := by
  simp [use, Program.perform, machine, Heap.touch_first heap buffer held owns]

theorem run_filled (size : Nat) (owns : heap.Owns held) (rest : Option Nat → BufferProgram (Option Received)) :
    Program.run (machine platform answers queued) (malloc size >>= fun name => use name >>= fun _ => rest name)
        (heap, calls) =
      Program.run (machine platform answers queued) (rest (some heap.next)) (heap.allocate, calls) := by
  rw [Program.run_bind, run_malloc, Program.run_bind,
    run_use_first platform answers queued _ calls held (some heap.next) (Heap.owns_allocate heap held owns)]

theorem run_strdup (source : Option Nat) (size : Nat) (owns : heap.Owns held) (owned : ∀ b, source = some b → b ∈ held) :
    Program.run (machine platform answers queued) (strdup source size) (heap, calls) =
      (some heap.next, heap.allocate, calls) := by
  rw [strdup, Program.run_bind, run_use platform answers queued heap calls held source owns owned, Program.run_bind,
    run_malloc, Program.run_bind,
    run_use_first platform answers queued _ calls held (some heap.next) (Heap.owns_allocate heap held owns)]
  rfl

theorem two_names : (Heap.empty.allocate.allocate).Owns [1, 0] :=
  Heap.owns_allocate _ _ (Heap.owns_allocate _ _ Heap.owns_empty)

theorem run_two_names (nameLen : Nat) (rest : Option Nat → Option Nat → BufferProgram (Option Received)) :
    Program.run (machine platform answers queued)
        (malloc (nameLen + 1 : Nat) >>= fun name => use name >>= fun _ =>
          strdup name (nameLen + 1) >>= fun copy => rest name copy) (Heap.empty, 0) =
      Program.run (machine platform answers queued) (rest (some 0) (some 1)) (Heap.empty.allocate.allocate, 0) := by
  have named : Heap.empty.allocate.Owns [0] := Heap.owns_allocate _ _ Heap.owns_empty
  rw [run_filled platform answers queued _ _ _ _ Heap.owns_empty, Program.run_bind,
    run_strdup platform answers queued _ _ [0] _ _ named fun b here => by cases here; exact .head _]
  rfl

theorem get_attr_refused (err : UvError) (nameLen : Nat) :
    outcome platform junk answers (.error err) (.getAttr nameLen) =
      (some (.error err), (Heap.empty.allocate.allocate.release (some 1)).release (some 0), 0) := by
  rw [outcome, AttrCall.program, jsGetAttr, run_two_names]
  rfl

theorem get_attr_accepted (nameLen : Nat) :
    outcome platform junk answers (.ok ()) (.getAttr nameLen) =
      Program.run (machine platform answers (.ok ()))
        (getAttr platform (some 1) ⟨none, 0⟩ >>= fun left => getAttrAfterWork (some 1) left.1 left.2)
        (Heap.empty.allocate.allocate.release (some 0), 0) := by
  rw [outcome, AttrCall.program, jsGetAttr, run_two_names]
  rfl

theorem released_get_attr (nameLen : Nat) : Released platform junk answers queued (.getAttr nameLen) := by
  intro received
  cases queued with
  | error err =>
      rw [get_attr_refused]
      exact (Heap.clean_iff _ _ (Heap.owns_release _ (some 0) _ (Heap.owns_release _ (some 1) _ two_names))).mpr rfl
  | ok done =>
      have freed : (Heap.empty.allocate.allocate.release (some 0)).Owns [1] :=
        Heap.owns_release _ (some 0) [1] (Heap.owns_perm _ _ _ two_names (.swap 0 1 []))
      obtain ⟨heap', calls', ran, owns⟩ := run_get_attr platform answers (.ok ()) _ 0 [1] (some 1) freed
        fun b here => by cases here; exact .head _
      obtain ⟨result, last, completed, cleaned⟩ := run_get_attr_after_work platform answers (.ok ()) heap' calls' []
        (some 1) _ _ owns
      rw [get_attr_accepted, Program.run_bind, ran, completed] at received ⊢
      exact (Heap.clean_iff _ _ (cleaned received)).mpr rfl

theorem run_return_attr (result : Status) (value : Buf) (owns : heap.Owns value.base.toList) :
    ∃ received heap', Program.run (machine platform answers queued) (returnAttr result value) (heap, calls) =
      (received, heap', calls) ∧
      ((received ≠ none → heap'.Clean) ↔ ¬ (result = .error .ENODATA ∧ value.base ≠ none)) := by
  have freed := Heap.clean_release heap value.base owns
  have copied := run_memcpy platform answers queued heap calls [] value (by rwa [List.append_nil])
  cases result with
  | error err =>
      by_cases absent : err = .ENODATA
      · subst absent
        refine ⟨some .null, heap, rfl, ?_⟩
        rw [Heap.clean_iff heap _ owns]
        cases value.base <;> simp
      · refine ⟨some (.error err), heap.release value.base, ?_, by simp [absent, freed]⟩
        cases err <;> first | rfl | exact absurd rfl absent
  | ok done =>
      rw [returnAttr, Program.run_bind, copied]
      split
      · exact ⟨none, heap, rfl, by simp⟩
      · exact ⟨some .value, heap.release value.base, rfl, by simp [freed]⟩

theorem translate_error (errno : Option UvError) (err : UvError) : translate errno = .error err ↔ errno = some err := by
  cases errno with
  | none => simp [translate]
  | some other => simp [translate]

theorem gotten_leaks (next nameLen : Nat) :
    ((gotten platform next (answers 0) (answers 1)).1 = .error .ENODATA ∧
      (gotten platform next (answers 0) (answers 1)).2.base ≠ none) ↔ Leaks answers (.getAttrSync nameLen) := by
  by_cases failed : narrow (answers 0).res = -1
  · simp [gotten, failed, Leaks]
  by_cases again : narrow (answers 1).res = -1
  · simp [gotten, failed, again, Leaks, translate_error, and_comm]
  · simp [gotten, failed, again, Leaks]

theorem released_get_attr_sync (nameLen : Nat) :
    Released platform junk answers queued (.getAttrSync nameLen) ↔ ¬ Leaks answers (.getAttrSync nameLen) := by
  have named : Heap.empty.allocate.Owns [0] := Heap.owns_allocate _ _ Heap.owns_empty
  obtain ⟨heap', calls', ran, owns⟩ := run_get_attr platform answers queued _ 0 [0] (some 0) named
    fun b here => by cases here; exact .head _
  have unnamed := Heap.owns_release heap' (some 0) _ (Heap.owns_perm _ _ _ owns List.perm_append_comm)
  obtain ⟨received, last, returned, cleaned⟩ := run_return_attr platform answers queued _ calls'
    (gotten platform Heap.empty.allocate.next (answers 0) (answers 1)).1 _ unnamed
  have whole : outcome platform junk answers queued (.getAttrSync nameLen) = (received, last, calls') := by
    rw [outcome, AttrCall.program, jsGetAttrSync, run_filled platform answers queued _ _ _ _ Heap.owns_empty,
      Program.run_bind]
    change Program.run _ _ (Program.run _ (getAttr platform (some 0) ⟨none, 0⟩) (Heap.empty.allocate, 0)).2 = _
    rw [show Heap.empty.next = 0 from rfl, ran]
    exact returned
  rw [Released, whole, cleaned, gotten_leaks]

theorem run_grown (base : Option Nat) (size : Nat) (owns : heap.Owns (base.toList ++ held)) :
    ∃ grown heap', Program.run (machine platform answers queued) (realloc base size) (heap, calls) =
      (grown, heap', calls) ∧ heap'.Owns (grown.toList ++ held) := by
  have freed := Heap.owns_release heap base held owns
  by_cases gone : platform = .linux ∧ size = 0 ∧ base.isSome
  · exact ⟨none, heap.release base, by simp [realloc, Program.perform, machine, gone], freed⟩
  · exact ⟨some (heap.release base).next, (heap.release base).allocate,
      by simp [realloc, Program.perform, machine, gone], Heap.owns_allocate _ held freed⟩

theorem run_table (base : Option Nat) (table : NameTable) (size : Nat) (owns : heap.Owns (base.toList ++ held)) :
    ∃ names heap', Program.run (machine platform answers queued) (use base >>= fun _ => realloc base size >>= fun grown =>
        use grown >>= fun _ => .ret (some (.ok (), (⟨grown, table⟩ : Names)))) (heap, calls) =
      (some ((.ok () : Status), names), heap', calls) ∧ heap'.Owns (names.base.toList ++ held) := by
  obtain ⟨grown, heap', moved, owns'⟩ := run_grown platform answers queued heap calls held base size owns
  refine ⟨⟨grown, table⟩, heap', ?_, owns'⟩
  rw [Program.run_bind, run_use_first platform answers queued heap calls held base owns, Program.run_bind, moved,
    Program.run_bind, run_use_first platform answers queued heap' calls held grown owns']
  rfl

theorem run_sized (size : Int) (owns : heap.Owns held) :
    ∃ base heap', machine platform answers queued (.malloc size) (heap, calls) = (base, heap', calls) ∧
      heap'.Owns (base.toList ++ held) ∧ (base ≠ none ↔ 0 ≤ size) := by
  by_cases negative : size < 0
  · exact ⟨none, heap, if_pos negative, owns, by simpa using negative⟩
  · exact ⟨some heap.next, heap.allocate, if_neg negative, Heap.owns_allocate heap held owns, by simpa using negative⟩

theorem run_tabulate (base : Option Nat) (length : Nat) (list : XattrResult)
    (owns : heap.Owns (base.toList ++ held)) :
    ∃ left heap', Program.run (machine platform answers queued) (tabulate junk base length list) (heap, calls) =
        (left, heap', calls) ∧
      (left = none ∧ narrow list.res ≠ -1 ∨ ∃ result names, left = some (result, names) ∧
        heap'.Owns (names.base.toList ++ held) ∧
        ((∃ err, result = .error err) ↔ narrow list.res = -1 ∧ list.errno ≠ none) ∧
        (narrow list.res = -1 → names.base = base)) := by
  by_cases failed : narrow list.res = -1
  · rw [tabulate, if_pos failed]
    exact ⟨_, heap, rfl, .inr ⟨_, _, rfl, owns,
      by simp [translate_error, failed, Option.ne_none_iff_exists'], fun _ => rfl⟩⟩
  · rw [tabulate, if_neg failed]
    split
    · exact ⟨none, heap, rfl, .inl ⟨rfl, failed⟩⟩
    · rename_i table _
      obtain ⟨names, last, ran, owned⟩ := run_table platform answers queued heap calls held base table
        (table.length * pointerSize + length) owns
      exact ⟨_, last, ran, .inr ⟨_, names, rfl, owned, by simp [failed], fun again => absurd again failed⟩⟩

theorem run_list_attrs (names : Names) (owns : heap.Owns held) (zeroed : names.base = none) :
    ∃ left heap' calls', Program.run (machine platform answers queued) (listAttrs junk names) (heap, 0) =
        (left, heap', calls') ∧
      (left = none ∧ ¬ Leaks answers .listAttrsSync ∨ ∃ result names', left = some (result, names') ∧
        heap'.Owns (names'.base.toList ++ held) ∧
        ((∃ err, result = .error err) ∧ names'.base ≠ none ↔ Leaks answers .listAttrsSync)) := by
  by_cases failed : narrow (answers 0).res = -1
  · refine ⟨some (translate (answers 0).errno, names), heap, 1, by simp [listAttrs, xattr, machine, failed],
      .inr ⟨_, names, rfl, by simpa [zeroed] using owns, by simp [zeroed, Leaks, failed]⟩⟩
  obtain ⟨base, heap', given, owns', sized⟩ := run_sized platform answers queued heap 1 held
    (narrow (answers 0).res) owns
  have filled : heap'.touch base = heap' := Heap.touch_first heap' base held owns'
  have listed : machine platform answers queued (.xattr [base]) (heap', 1) = (answers 1, heap', 2) := by
    simp [machine, filled]
  obtain ⟨left, last, ran, ends⟩ := run_tabulate platform junk answers queued heap' 2 held base
    (narrow (answers 0).res % 2 ^ 64).toNat (answers 1) owns'
  have whole : Program.run (machine platform answers queued) (listAttrs junk names) (heap, 0) = (left, last, 2) := by
    rw [listAttrs, xattr, Program.perform_bind]
    refine Program.run_step _ _ _ _ (heap, 1) (answers 0) _ rfl ?_
    rw [if_neg failed]
    exact Program.run_step _ _ _ _ _ _ _ given (Program.run_step _ _ _ _ _ _ _ listed ran)
  refine ⟨left, last, 2, whole, ?_⟩
  rcases ends with ⟨stuck, read⟩ | ⟨result, names', rfl, owned, failing, same⟩
  · exact .inl ⟨stuck, fun leaks => read leaks.2.1⟩
  · refine .inr ⟨result, names', rfl, owned, ?_⟩
    rw [failing, Leaks, ← sized]
    constructor
    · rintro ⟨⟨again, errno⟩, kept⟩
      exact ⟨same again ▸ kept, again, errno⟩
    · rintro ⟨kept, again, errno⟩
      exact ⟨⟨again, errno⟩, (same again).symm ▸ kept⟩

theorem run_read_names (names : Names) (owns : heap.Owns (names.base.toList ++ held)) :
    Program.run (machine platform answers queued) (readNames names) (heap, calls) =
      (names.table.listed.map .names, heap, calls) := by
  rw [readNames, Program.run_bind, run_use_first platform answers queued heap calls held names.base owns]
  cases names.table.listed <;> rfl

theorem run_list_attrs_after_work (result : Status) (names : Names) (owns : heap.Owns names.base.toList) :
    ∃ received heap', Program.run (machine platform answers queued) (listAttrsAfterWork result names) (heap, calls) =
      (received, heap', calls) ∧ (received ≠ none → heap'.Clean) := by
  have freed := Heap.clean_release heap names.base owns
  have read := run_read_names platform answers queued heap calls [] names (by rwa [List.append_nil])
  cases result with
  | error err => exact ⟨some (.error err), _, rfl, fun _ => freed⟩
  | ok done =>
      rw [listAttrsAfterWork, Program.run_bind, onListAttrs, read]
      cases names.table.listed with
      | none => exact ⟨none, heap, rfl, fun absent => absurd rfl absent⟩
      | some list => exact ⟨some (.names list), _, rfl, fun _ => freed⟩

theorem run_return_attrs (result : Status) (names : Names) (owns : heap.Owns names.base.toList) :
    ∃ received heap', Program.run (machine platform answers queued) (returnAttrs result names) (heap, calls) =
      (received, heap', calls) ∧
      ((received ≠ none → heap'.Clean) ↔ ¬ ((∃ err, result = .error err) ∧ names.base ≠ none)) := by
  have freed := Heap.clean_release heap names.base owns
  have read := run_read_names platform answers queued heap calls [] names (by rwa [List.append_nil])
  cases result with
  | error err =>
      refine ⟨some (.error err), heap, rfl, ?_⟩
      rw [Heap.clean_iff heap _ owns]
      cases names.base <;> simp
  | ok done =>
      rw [returnAttrs, Program.run_bind, read]
      cases names.table.listed with
      | none => exact ⟨none, heap, rfl, by simp⟩
      | some list => exact ⟨some (.names list), _, rfl, by simp [freed]⟩

theorem released_list_attrs : Released platform junk answers queued .listAttrs := by
  intro received
  cases queued with
  | error err =>
      have whole : outcome platform junk answers (.error err) .listAttrs = (some (.error err), Heap.empty, 0) := rfl
      rw [whole]
      exact (Heap.clean_iff _ _ Heap.owns_empty).mpr rfl
  | ok done =>
      obtain ⟨left, heap', calls', ran, ends⟩ := run_list_attrs platform junk answers (.ok ()) Heap.empty []
        ⟨none, ⟨none, 0⟩⟩ Heap.owns_empty rfl
      have whole : outcome platform junk answers (.ok ()) .listAttrs =
          Program.run (machine platform answers (.ok ()))
            (left.elim (.ret none) fun found => listAttrsAfterWork found.1 found.2) (heap', calls') := by
        change Program.run _ (listAttrs junk ⟨none, ⟨none, 0⟩⟩ >>= _) (Heap.empty, 0) = _
        rw [Program.run_bind, ran]
        cases left <;> rfl
      rw [whole] at received ⊢
      rcases ends with ⟨stuck, _⟩ | ⟨result, names, rfl, owns, _⟩
      · rw [stuck] at received
        exact absurd rfl received
      · rw [List.append_nil] at owns
        obtain ⟨shown, last, completed, cleaned⟩ := run_list_attrs_after_work platform answers (.ok ()) heap' calls'
          result names owns
        rw [Option.elim_some, completed] at received ⊢
        exact cleaned received

theorem released_list_attrs_sync :
    Released platform junk answers queued .listAttrsSync ↔ ¬ Leaks answers .listAttrsSync := by
  obtain ⟨left, heap', calls', ran, ends⟩ := run_list_attrs platform junk answers queued Heap.empty []
    ⟨none, ⟨none, 0⟩⟩ Heap.owns_empty rfl
  have whole : outcome platform junk answers queued .listAttrsSync =
      Program.run (machine platform answers queued) (left.elim (.ret none) fun found => returnAttrs found.1 found.2)
        (heap', calls') := by
    rw [outcome, AttrCall.program, jsListAttrsSync, Program.run_bind, ran]
    cases left <;> rfl
  rcases ends with ⟨stuck, kept⟩ | ⟨result, names, rfl, owns, leaks⟩
  · have walkedOff : (outcome platform junk answers queued .listAttrsSync).1 = none := by rw [whole, stuck]; rfl
    exact iff_of_true (fun received => absurd walkedOff received) kept
  · rw [List.append_nil] at owns
    obtain ⟨received, last, returned, cleaned⟩ := run_return_attrs platform answers queued heap' calls' result names owns
    rw [Option.elim_some, returned] at whole
    rw [Released, whole, cleaned, leaks]

end

theorem released_iff (platform : Platform) (junk : Nat → UInt8) (answers : Nat → XattrResult) (queued : Status)
    (call : AttrCall) : Released platform junk answers queued call ↔ ¬ Leaks answers call := by
  cases call with
  | getAttr nameLen => exact iff_of_true (released_get_attr platform junk answers queued nameLen) id
  | getAttrSync nameLen => exact released_get_attr_sync platform junk answers queued nameLen
  | listAttrs => exact iff_of_true (released_list_attrs platform junk answers queued) id
  | listAttrsSync => exact released_list_attrs_sync platform junk answers queued

def removedBetween (calls : Nat) : XattrResult := if calls = 0 then ⟨2, none, []⟩ else ⟨-1, some .ENODATA, []⟩

theorem removed_value_leaks :
    outcome .linux (fun _ => 0) removedBetween (.ok ()) (.getAttrSync 1) = (some .null, ⟨[1], 2, []⟩, 2) ∧
      ¬ Released .linux (fun _ => 0) removedBetween (.ok ()) (.getAttrSync 1) := by
  have ran : outcome .linux (fun _ => 0) removedBetween (.ok ()) (.getAttrSync 1) = (some .null, ⟨[1], 2, []⟩, 2) := rfl
  refine ⟨ran, fun released => ?_⟩
  rw [Released, ran] at released
  exact absurd (released nofun).1 (by decide)

end FsExt.Attr.Buffers
