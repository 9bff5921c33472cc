import FsExt.Binding.Resources
import FsExt.Sys.Ownership

set_option autoImplicit false

namespace FsExt.Binding.Resources

open Sys
open FsExt.Attr.Buffers (BufferOp BufferAnswer BufferProgram Buf Names)
open FsExt.Attr.Windows (NtError)

def blocks (buffer : Option Nat) : List Resource := (buffer.map Resource.block).toList

-- `malloc` may fail. What `realloc` returns is null only if it is to have no bytes,
-- and the old buffer is freed in any case.
def bufferCustody : Custody BufferOp BufferAnswer Resource where
  uses
    | .use buffer => blocks buffer
    | .xattr buffers => buffers.flatMap blocks
    | _ => []
  frees
    | .realloc buffer _ | .free buffer => buffer.map .block
    | _ => none
  gains
    | .malloc _, answer => answer.map .block
    | .realloc _ _, answer => answer.map .block
    | _, _ => none
  replies
    | .realloc _ size, answer => answer = none → size = 0
    | _, _ => True

def custody : Custody ResourceOp ResourceAnswer Resource where
  uses
    | .buffer op => bufferCustody.uses op
    | .stream handle buffer => .handle handle :: blocks buffer
    | .queryStreams _ info => blocks info
    | .swap _ paths | .exchange _ paths => paths.flatMap blocks
    | .openStream | .deleteFile | .close _ | .lost => []
  frees
    | .buffer op => bufferCustody.frees op
    | .close handle => some (.handle handle)
    | _ => none
  gains
    | .buffer op, answer => bufferCustody.gains op answer
    | .openStream, .ok handle => some (.handle handle)
    | _, _ => none
  replies
    | .buffer op, answer => bufferCustody.replies op answer
    | _, _ => True

def own (buffer : Option Nat) (held : Multiset Resource) : Multiset Resource := adding (buffer.map .block) held

theorem own_add (buffer : Option Nat) (held other : Multiset Resource) : own buffer held + other = own buffer (held + other) :=
  adding_add _ _ _

theorem own_swap (buffer other : Option Nat) (held : Multiset Resource) :
    own buffer (own other held) = own other (own buffer held) := by
  cases buffer <;> cases other <;> first | rfl | exact Multiset.cons_swap _ _ held

def Has (held : Multiset Resource) (buffer : Option Nat) : Prop := ∀ id, buffer = some id → .block id ∈ held

theorem has_own (buffer : Option Nat) (held : Multiset Resource) : Has (own buffer held) buffer := by
  rintro id rfl
  exact Multiset.mem_cons_self _ held

theorem has_later (buffer other : Option Nat) (held : Multiset Resource) (has : Has held buffer) :
    Has (own other held) buffer := fun id here => (mem_adding _ held _).mpr (.inr (has id here))

theorem has_null (held : Multiset Resource) : Has held none := fun _ here => by cases here

theorem has_blocks (held : Multiset Resource) (buffer : Option Nat) (has : Has held buffer) :
    ∀ resource ∈ blocks buffer, resource ∈ held := by
  intro resource member
  cases buffer with
  | none => cases member
  | some id =>
      obtain rfl := List.mem_singleton.mp member
      exact has id rfl

theorem has_all (held : Multiset Resource) (names : List (Option Nat)) (has : ∀ name ∈ names, Has held name) :
    ∀ resource ∈ names.flatMap blocks, resource ∈ held := by
  intro resource member
  obtain ⟨name, inside, here⟩ := List.mem_flatMap.mp member
  exact has_blocks held name (has name inside) resource here

section
variable (held : Multiset Resource)

theorem malloc_yields (size : Int) :
    bufferCustody.Yields (Attr.Buffers.malloc size) held fun base rest => rest = own base held :=
  ⟨fun _ used => (by cases used), held, rfl, fun _ _ => rfl⟩

theorem realloc_yields (buffer : Option Nat) (size : Nat) :
    bufferCustody.Yields (Attr.Buffers.realloc buffer size) (own buffer held) fun grown rest => rest = own grown held :=
  ⟨fun _ used => (by cases used), held, rfl, fun _ _ => rfl⟩

theorem free_yields (buffer : Option Nat) :
    bufferCustody.Yields (Attr.Buffers.free buffer) (own buffer held) fun _ rest => rest = held :=
  ⟨fun _ used => (by cases used), held, rfl, fun _ _ => rfl⟩

theorem use_yields (buffer : Option Nat) (has : Has held buffer) :
    bufferCustody.Yields (Attr.Buffers.use buffer) held fun _ rest => rest = held :=
  ⟨has_blocks held buffer has, held, rfl, fun _ _ => rfl⟩

theorem xattr_yields (buffers : List (Option Nat)) (has : ∀ buffer ∈ buffers, Has held buffer) :
    bufferCustody.Yields (Attr.Buffers.xattr buffers) held fun _ rest => rest = held :=
  ⟨has_all held buffers has, held, rfl, fun _ _ => rfl⟩

theorem queue_yields : bufferCustody.Yields Attr.Buffers.queue held fun _ rest => rest = held :=
  ⟨fun _ used => (by cases used), held, rfl, fun _ _ => rfl⟩

theorem buffers_yields {α : Type} (program : BufferProgram α) (post : α → Multiset Resource → Prop)
    (yields : bufferCustody.Yields program held post) : custody.Yields (buffers program) held post :=
  bufferCustody.yields_through custody ResourceOp.buffer (fun _ answer => answer) (fun _ => rfl) (fun _ => rfl)
    (fun _ _ => rfl) (fun _ _ replies => replies) program held post yields

theorem then_yields {α β : Type} (program : BufferProgram α) (rest : α → ResourceProgram β)
    (between : α → Multiset Resource) (post : β → Multiset Resource → Prop)
    (first : bufferCustody.Yields program held fun value left => left = between value)
    (second : ∀ value, custody.Yields (rest value) (between value) post) :
    custody.Yields (buffers program >>= rest) held post := by
  refine custody.yields_bind _ _ _ _ _ (buffers_yields held program _ first) fun value left same => ?_
  subst same
  exact second value

theorem unless_lost_yields {α : Type} (program : BufferProgram (Option α)) (post : α → Multiset Resource → Prop)
    (yields : bufferCustody.Yields program held fun found rest => ∀ value, found = some value → post value rest) :
    custody.Yields (unlessLost program) held post := by
  refine custody.yields_bind _ _ _ _ _ (buffers_yields held program _ yields) fun found rest holds => ?_
  cases found with
  | none => exact ⟨fun _ used => (by cases used), rest, rfl, fun answer => answer.elim⟩
  | some value => exact holds value rfl

def Gotten (backend : Backend) (result : Status × Buf) (rest : Multiset Resource) : Prop :=
  rest = own result.2.base held ∧ (backend = .windows → result.1 = .error .ENODATA → result.2.base = none)

theorem posix_get_yields (platform : Attr.Platform) (path : Option Nat) (has : Has held path) :
    bufferCustody.Yields (Attr.Buffers.getAttr platform path ⟨none, 0⟩) held (Gotten held (.posix platform)) := by
  have one : ∀ buffer ∈ [path], Has held buffer := fun buffer member => List.mem_singleton.mp member ▸ has
  refine bufferCustody.yields_bind _ _ _ _ _ (xattr_yields held [path] one) fun size left same => ?_
  subst same
  split
  · exact ⟨rfl, fun windows => by cases windows⟩
  · refine bufferCustody.yields_bind _ _ _ _ _ (malloc_yields left _) fun base left' same => ?_
    subst same
    have both : ∀ buffer ∈ [path, base], Has (own base left) buffer := by
      intro buffer member
      rcases List.mem_cons.mp member with rfl | last
      · exact has_later _ base left has
      · exact List.mem_singleton.mp last ▸ has_own base left
    refine bufferCustody.yields_bind _ _ _ _ _ (xattr_yields _ [path, base] both) fun content left' same => ?_
    subst same
    exact ⟨rfl, fun windows => by cases windows⟩

theorem stream_yields {α : Type} (handle : Nat) (buffer : Option Nat) (rest : Except NtError Nat → ResourceProgram α)
    (post : α → Multiset Resource → Prop) (open_ : .handle handle ∈ held) (has : Has held buffer)
    (onward : ∀ answer, custody.Yields (rest answer) held post) :
    custody.Yields (stream handle buffer >>= rest) held post := by
  refine ⟨fun resource used => ?_, held, rfl, fun answer _ => onward answer⟩
  rcases List.mem_cons.mp used with rfl | block
  · exact open_
  · exact has_blocks held buffer has resource block

theorem close_yields {α : Type} (handle : Nat) (rest : Unit → ResourceProgram α) (post : α → Multiset Resource → Prop)
    (onward : custody.Yields (rest ()) held post) :
    custody.Yields (close handle >>= rest) (.handle handle ::ₘ held) post :=
  ⟨fun _ used => (by cases used), held, rfl, fun _ _ => onward⟩

theorem open_yields {α : Type} (rest : Except NtError Nat → ResourceProgram α) (post : α → Multiset Resource → Prop)
    (failed : ∀ err, custody.Yields (rest (.error err)) held post)
    (opened : ∀ handle, custody.Yields (rest (.ok handle)) (.handle handle ::ₘ held) post) :
    custody.Yields (openStream >>= rest) held post := by
  refine ⟨fun _ used => (by cases used), held, rfl, fun answer _ => ?_⟩
  cases answer with
  | error err => exact failed err
  | ok handle => exact opened handle

theorem windows_get_yields (name : CString) (path : Option Nat) (has : Has held path) :
    custody.Yields (Windows.getAttr name path ⟨none, 0⟩) held (Gotten held .windows) := by
  refine then_yields held _ _ _ _ (use_yields held path has) fun _ => ?_
  cases named : Attr.Windows.streamName name with
  | error err => exact ⟨rfl, fun _ missing => rfl⟩
  | ok wide =>
      refine open_yields held _ _ (fun err => ⟨rfl, fun _ _ => rfl⟩) fun handle => ?_
      refine stream_yields _ handle none _ _ (Multiset.mem_cons_self _ _) (has_null _) fun length => ?_
      cases length with
      | error err => exact close_yields held handle _ _ ⟨rfl, fun _ _ => rfl⟩
      | ok length =>
          refine then_yields _ _ _ _ _ (malloc_yields _ _) fun base => ?_
          have swapped : own base (.handle handle ::ₘ held) = .handle handle ::ₘ own base held := by
            cases base with
            | none => rfl
            | some id => exact Multiset.cons_swap _ _ held
          rw [swapped]
          have filled : Has (.handle handle ::ₘ own base held) base := fun id here =>
            Multiset.mem_cons_of_mem (has_own base held id here)
          refine stream_yields _ handle base _ _ (Multiset.mem_cons_self _ _) filled fun read => ?_
          refine close_yields _ handle _ _ ?_
          cases read with
          | error err => exact ⟨rfl, fun _ missing => by cases missing⟩
          | ok count =>
              refine ⟨rfl, fun _ missing => ?_⟩
              simp only at missing
              split at missing <;> cases missing

theorem get_yields (backend : Backend) (name : CString) (path : Option Nat) (has : Has held path) :
    custody.Yields (getAttr backend name path ⟨none, 0⟩) held (Gotten held backend) := by
  cases backend with
  | posix platform => exact buffers_yields held _ _ (posix_get_yields held platform path has)
  | windows => exact windows_get_yields held name path has

theorem set_yields (backend : Backend) (name : CString) (len : Nat) (path : Option Nat) (has : Has held path) :
    custody.Yields (setAttr backend name len path) held fun _ rest => rest = held := by
  have one : ∀ buffer ∈ [path], Has held buffer := fun buffer member => List.mem_singleton.mp member ▸ has
  cases backend with
  | posix platform =>
      refine buffers_yields held _ _ (bufferCustody.yields_bind _ _ _ _ _ (xattr_yields held [path] one) ?_)
      exact fun _ left same => same
  | windows =>
      refine then_yields held _ _ _ _ (use_yields held path has) fun _ => ?_
      cases named : Attr.Windows.streamName name with
      | error err => rfl
      | ok wide =>
          refine open_yields held _ _ (fun err => rfl) fun handle => ?_
          refine stream_yields _ handle none _ _ (Multiset.mem_cons_self _ _) (has_null _) fun written => ?_
          refine close_yields held handle _ _ ?_
          cases written <;> rfl

theorem remove_yields (backend : Backend) (name : CString) (path : Option Nat) (has : Has held path) :
    custody.Yields (removeAttr backend name path) held fun _ rest => rest = held := by
  have one : ∀ buffer ∈ [path], Has held buffer := fun buffer member => List.mem_singleton.mp member ▸ has
  cases backend with
  | posix platform =>
      refine buffers_yields held _ _ (bufferCustody.yields_bind _ _ _ _ _ (xattr_yields held [path] one) ?_)
      exact fun _ left same => same
  | windows =>
      refine then_yields held _ _ _ _ (use_yields held path has) fun _ => ?_
      cases named : Attr.Windows.streamName name with
      | error err => rfl
      | ok wide =>
          refine open_yields held _ _ (fun err => rfl) fun handle => ?_
          refine custody.yields_use .deleteFile _ _ _ (fun _ used => (by cases used)) rfl (fun _ => rfl) fun deleted _ => ?_
          refine close_yields held handle _ _ ?_
          cases deleted <;> rfl

def Listed (backend : Backend) (result : Status × Names) (rest : Multiset Resource) : Prop :=
  rest = own result.2.base held ∧ (backend = .windows → result.1 ≠ .ok () → result.2.base = none)

theorem posix_tabulate_yields (platform : Attr.Platform) (junk : Nat → UInt8) (base : Option Nat) (length : Nat)
    (list : Attr.XattrResult) :
    bufferCustody.Yields (Attr.Buffers.tabulate junk base length list) (own base held) fun found rest =>
      ∀ result, found = some result → Listed held (.posix platform) result rest := by
  rw [Attr.Buffers.tabulate]
  split
  · rintro result same
    cases same
    exact ⟨rfl, fun windows => by cases windows⟩
  · split
    · intro result same
      cases same
    · refine bufferCustody.yields_bind _ _ _ _ _ (use_yields _ base (has_own base held)) fun _ left same => ?_
      subst same
      refine bufferCustody.yields_bind _ _ _ _ _ (realloc_yields held base _) fun grown left same => ?_
      subst same
      refine bufferCustody.yields_bind _ _ _ _ _ (use_yields _ grown (has_own grown held)) fun _ left same => ?_
      subst same
      rintro result same
      cases same
      exact ⟨rfl, fun windows => by cases windows⟩

theorem posix_list_yields (platform : Attr.Platform) (junk : Nat → UInt8) (names : Names) (null : names.base = none) :
    bufferCustody.Yields (Attr.Buffers.listAttrs junk names) held fun found rest =>
      ∀ result, found = some result → Listed held (.posix platform) result rest := by
  have nobody : ∀ buffer ∈ ([] : List (Option Nat)), Has held buffer := fun _ member => by cases member
  refine bufferCustody.yields_bind _ _ _ _ _ (xattr_yields held [] nobody) fun size left same => ?_
  subst same
  split
  · rintro result same
    cases same
    exact ⟨by rw [null]; rfl, fun windows => by cases windows⟩
  · refine bufferCustody.yields_bind _ _ _ _ _ (malloc_yields left _) fun base left' same => ?_
    subst same
    have one : ∀ buffer ∈ [base], Has (own base left) buffer := fun buffer member =>
      List.mem_singleton.mp member ▸ has_own base left
    refine bufferCustody.yields_bind _ _ _ _ _ (xattr_yields _ [base] one) fun list left' same => ?_
    subst same
    exact posix_tabulate_yields left platform junk base _ list

theorem tabulate_yields (info : Option Nat) (content : List UInt8) :
    custody.Yields (Windows.tabulate info content) (own info held) (Listed held .windows) := by
  refine then_yields _ _ _ _ _ (use_yields _ info (has_own info held)) fun _ => ?_
  cases listed : Attr.Windows.listStreams content with
  | none => exact ⟨fun _ used => (by cases used), _, rfl, fun answer => answer.elim⟩
  | some listing =>
      refine then_yields _ _ _ _ _ (malloc_yields _ _) fun base => ?_
      refine then_yields _ _ _ _ _ (use_yields _ info (has_later info base _ (has_own info held))) fun _ => ?_
      refine then_yields _ _ _ _ _ (use_yields _ base (has_own base _)) fun _ => ?_
      rw [own_swap]
      refine then_yields _ _ _ _ _ (free_yields _ info) fun _ => ?_
      exact ⟨rfl, fun _ failed => absurd rfl failed⟩

theorem query_info_yields (names : Names) (null : names.base = none) (doublings infoSize : Nat) (info : Option Nat) :
    custody.Yields (Windows.queryInfo names doublings infoSize info) (own info held) (Listed held .windows) := by
  induction doublings generalizing infoSize info with
  | zero => exact ⟨fun _ used => (by cases used), _, rfl, fun answer => answer.elim⟩
  | succ doublings ih =>
      refine custody.yields_use (.queryStreams _ info) _ _ _ (has_blocks _ info (has_own info held)) rfl (fun _ => rfl)
        fun answer _ => ?_
      cases answer with
      | ok content => exact tabulate_yields held info _
      | error err =>
          cases err with
          | bufferOverflow =>
              refine then_yields _ _ _ _ _ (realloc_yields held info _) fun grown => ?_
              refine then_yields _ _ _ _ _ (use_yields _ grown (has_own grown held)) fun _ => ?_
              exact ih (infoSize * 2) grown
          | other =>
              refine then_yields _ _ _ _ _ (free_yields held info) fun _ => ?_
              exact ⟨by rw [null]; rfl, fun _ _ => null⟩

theorem list_yields (backend : Backend) (junk : Nat → UInt8) (names : Names) (null : names.base = none) :
    custody.Yields (listAttrs backend junk names) held (Listed held backend) := by
  cases backend with
  | posix platform => exact unless_lost_yields held _ _ (posix_list_yields held platform junk names null)
  | windows =>
      refine then_yields held _ _ _ _ (malloc_yields held 64) fun info => ?_
      refine then_yields _ _ _ _ _ (use_yields _ info (has_own info held)) fun _ => ?_
      exact query_info_yields held names null 58 64 info

theorem swap_yields (backend : Backend) (processId : UInt32) (source target : CString) (paths : List (Option Nat))
    (has : ∀ path ∈ paths, Has held path) :
    custody.Yields (swap backend processId source target paths) held fun _ rest => rest = held := by
  have read := has_all held paths has
  cases backend with
  | posix platform => exact custody.yields_reading _ _ _ held (fun _ => read) (fun _ => rfl) fun _ _ => rfl
  | windows => exact custody.yields_reading _ _ _ held (fun _ => read) (fun _ => rfl) fun _ _ => rfl

theorem memcpy_yields (value : Buf) (has : Has held value.base) :
    bufferCustody.Yields (Attr.Buffers.memcpy value) held fun _ rest => rest = held := by
  rw [Attr.Buffers.memcpy]
  split
  · rfl
  · exact bufferCustody.yields_bind _ _ _ _ _ (use_yields held value.base has) fun _ left same => same

theorem on_get_yields (result : Status) (value : Buf) (has : Has held value.base) :
    bufferCustody.Yields (Attr.Buffers.onGetAttr result value) held fun _ rest => rest = held := by
  cases result with
  | error err => cases err <;> rfl
  | ok done =>
      refine bufferCustody.yields_bind _ _ _ _ _ (memcpy_yields held value has) fun copied left same => ?_
      cases copied <;> exact same

theorem after_get_yields (copy : Option Nat) (result : Status) (value : Buf) :
    bufferCustody.Yields (Attr.Buffers.getAttrAfterWork copy result value) (own value.base (own copy held))
      fun found rest => ∀ received, found = some received → rest = held := by
  refine bufferCustody.yields_bind _ _ _ _ _ (on_get_yields _ result value (has_own value.base _)) fun found left same => ?_
  subst same
  cases found with
  | none => exact fun _ lost => by cases lost
  | some received =>
      refine bufferCustody.yields_bind _ _ _ _ _ (free_yields _ value.base) fun _ left same => ?_
      subst same
      refine bufferCustody.yields_bind _ _ _ _ _ (free_yields held copy) fun _ left same => ?_
      exact fun _ _ => same

theorem return_attr_yields (result : Status) (value : Buf) :
    bufferCustody.Yields (Attr.Buffers.returnAttr result value) (own value.base held)
      fun found rest => ∀ received, found = some received → rest = own (leakedValue result value) held := by
  have freed := free_yields held value.base
  cases result with
  | ok done =>
      refine bufferCustody.yields_bind _ _ _ _ _ (memcpy_yields _ value (has_own value.base held)) fun copied left same => ?_
      subst same
      cases copied with
      | none => exact fun _ lost => by cases lost
      | some copied => exact bufferCustody.yields_bind _ _ _ _ _ freed fun _ left same => fun _ _ => same
  | error err =>
      cases err with
      | ENODATA => exact fun _ _ => rfl
      | _ => exact bufferCustody.yields_bind _ _ _ _ _ freed fun _ left same => fun _ _ => same

theorem read_names_yields (names : Names) (has : Has held names.base) :
    bufferCustody.Yields (Attr.Buffers.readNames names) held fun _ rest => rest = held := by
  refine bufferCustody.yields_bind _ _ _ _ _ (use_yields held names.base has) fun _ left same => ?_
  split <;> exact same

theorem after_list_yields (result : Status) (names : Names) :
    bufferCustody.Yields (Attr.Buffers.listAttrsAfterWork result names) (own names.base held)
      fun found rest => ∀ received, found = some received → rest = held := by
  have shown : bufferCustody.Yields (Attr.Buffers.onListAttrs result names) (own names.base held)
      fun _ rest => rest = own names.base held := by
    cases result with
    | error err => rfl
    | ok done => exact read_names_yields _ names (has_own names.base held)
  refine bufferCustody.yields_bind _ _ _ _ _ shown fun found left same => ?_
  subst same
  cases found with
  | none => exact fun _ lost => by cases lost
  | some received =>
      exact bufferCustody.yields_bind _ _ _ _ _ (free_yields held names.base) fun _ left same => fun _ _ => same

theorem return_attrs_yields (result : Status) (names : Names) :
    bufferCustody.Yields (Attr.Buffers.returnAttrs result names) (own names.base held)
      fun found rest => ∀ received, found = some received → rest = own (leakedNames result names) held := by
  cases result with
  | error err => exact fun _ _ => rfl
  | ok done =>
      refine bufferCustody.yields_bind _ _ _ _ _ (read_names_yields _ names (has_own names.base held)) fun found left same => ?_
      subst same
      cases found with
      | none => exact fun _ lost => by cases lost
      | some received =>
          exact bufferCustody.yields_bind _ _ _ _ _ (free_yields held names.base) fun _ left same => fun _ _ => same

end

def Work.copies : Work → List (Option Nat)
  | .getAttr _ copy | .setAttr _ _ copy | .removeAttr _ copy => [copy]
  | .listAttrs => []
  | .swap _ _ sourceCopy targetCopy => [sourceCopy, targetCopy]

def owned (names : List (Option Nat)) : Multiset Resource := names.foldr own 0

def Job.keeps : Job → Multiset Resource
  | .ended leaked => own leaked 0
  | .queued _ _ => 0

def Job.Good (leaky : Prop) : Job → Multiset Resource → Prop
  | .ended leaked, held => held = own leaked 0 ∧ (leaked ≠ none → leaky)
  | .queued names work, held => held = owned names + owned work.copies

theorem freeing_yields (leaky : Prop) (names : List (Option Nat)) :
    custody.Yields (freeing names) (owned names) (Job.Good leaky) := by
  induction names with
  | nil => exact ⟨rfl, fun leaked => absurd rfl leaked⟩
  | cons name rest ih => exact then_yields _ _ _ _ _ (free_yields (owned rest) name) fun _ => ih

theorem work_yields (setting : Setting) (leaky : Prop) (work : Work) :
    custody.Yields (work.program setting) (owned work.copies) (Job.Good leaky) := by
  have through : Job.Good leaky (.ended none) 0 := ⟨rfl, fun leaked => absurd rfl leaked⟩
  cases work with
  | getAttr name copy =>
      refine custody.yields_bind _ _ _ _ _ (get_yields _ setting.backend name copy (has_own copy 0)) fun result left gotten => ?_
      rw [gotten.1]
      refine custody.yields_bind _ _ _ _ _ (unless_lost_yields _ _ (fun _ rest => rest = 0) ?_) fun _ rest same => ?_
      · exact after_get_yields 0 copy result.1 result.2
      · exact same ▸ through
  | setAttr name len copy =>
      refine custody.yields_bind _ _ _ _ _ (set_yields _ setting.backend name len copy (has_own copy 0)) fun _ left same => ?_
      subst same
      exact then_yields _ _ _ _ _ (free_yields 0 copy) fun _ => through
  | removeAttr name copy =>
      refine custody.yields_bind _ _ _ _ _ (remove_yields _ setting.backend name copy (has_own copy 0)) fun _ left same => ?_
      subst same
      exact then_yields _ _ _ _ _ (free_yields 0 copy) fun _ => through
  | listAttrs =>
      refine custody.yields_bind _ _ _ _ _ (list_yields 0 setting.backend setting.junk _ rfl) fun result left listed => ?_
      rw [listed.1]
      refine custody.yields_bind _ _ _ _ _ (unless_lost_yields _ _ (fun _ rest => rest = 0) ?_) fun _ rest same => ?_
      · exact after_list_yields 0 result.1 result.2
      · exact same ▸ through
  | swap source target sourceCopy targetCopy =>
      have both : ∀ path ∈ [sourceCopy, targetCopy], Has (own sourceCopy (own targetCopy 0)) path := by
        intro path member
        rcases List.mem_cons.mp member with rfl | last
        · exact has_own path _
        · obtain rfl := List.mem_singleton.mp last
          exact has_later path sourceCopy _ (has_own path 0)
      refine custody.yields_bind _ _ _ _ _
        (swap_yields _ setting.backend setting.processId source target [sourceCopy, targetCopy] both) fun _ left same => ?_
      subst same
      refine then_yields _ _ _ _ _ (free_yields _ sourceCopy) fun _ => ?_
      exact then_yields _ _ _ _ _ (free_yields 0 targetCopy) fun _ => through

def Call.leaks (backend : Backend) : Call → Prop
  | .getAttrSync _ | .listAttrsSync => backend ≠ .windows
  | _ => False

theorem filled_yields {β : Type} (name : CString) (held : Multiset Resource) (rest : Option Nat → ResourceProgram β)
    (post : β → Multiset Resource → Prop) (onward : ∀ buffer, custody.Yields (rest buffer) (own buffer held) post) :
    custody.Yields (filled name >>= rest) held post := by
  refine custody.yields_bind _ _ _ (fun buffer left => left = own buffer held) _ ?_ fun buffer left same => ?_
  · refine then_yields held _ _ _ _ (malloc_yields held _) fun buffer => ?_
    exact then_yields _ _ _ _ _ (use_yields _ buffer (has_own buffer held)) fun _ => rfl
  · exact same ▸ onward buffer

theorem strdup_yields {β : Type} (source : Option Nat) (size : Nat) (held : Multiset Resource)
    (rest : Option Nat → ResourceProgram β) (post : β → Multiset Resource → Prop) (has : Has held source)
    (onward : ∀ copy, custody.Yields (rest copy) (own copy held) post) :
    custody.Yields (buffers (Attr.Buffers.strdup source size) >>= rest) held post := by
  refine then_yields held _ _ (fun copy => own copy held) _ ?_ onward
  refine bufferCustody.yields_bind _ _ _ _ _ (use_yields held source has) fun _ left same => ?_
  subst same
  refine bufferCustody.yields_bind _ _ _ _ _ (malloc_yields left _) fun copy left' same => ?_
  subst same
  exact bufferCustody.yields_bind _ _ _ _ _ (use_yields _ copy (has_own copy left)) fun _ left' same => same

theorem submit_name_yields (leaky : Prop) (name : CString) (work : Option Nat → Work)
    (copies : ∀ copy, (work copy).copies = [copy]) : custody.Yields (submitName name work) 0 (Job.Good leaky) := by
  refine filled_yields name 0 _ _ fun buffer => ?_
  refine strdup_yields buffer _ _ _ _ (has_own buffer 0) fun copy => ?_
  refine then_yields _ _ _ _ _ (queue_yields _) fun queued => ?_
  cases queued with
  | error err =>
      refine then_yields _ _ _ _ _ (free_yields _ copy) fun _ => ?_
      exact then_yields _ _ _ _ _ (free_yields 0 buffer) fun _ => ⟨rfl, fun leaked => absurd rfl leaked⟩
  | ok done =>
      change own copy (own buffer 0) = owned [buffer] + owned (work copy).copies
      rw [copies]
      change own copy (own buffer 0) = own buffer 0 + own copy 0
      rw [add_comm, own_add, zero_add]

theorem submit_swap_yields (leaky : Prop) (source target : CString) :
    custody.Yields (submitSwap source target) 0 (Job.Good leaky) := by
  refine strdup_yields none _ _ _ _ (has_null 0) fun sourceCopy => ?_
  refine strdup_yields none _ _ _ _ (has_null _) fun targetCopy => ?_
  rw [own_swap]
  refine then_yields _ _ _ _ _ (queue_yields _) fun queued => ?_
  cases queued with
  | error err =>
      refine then_yields _ _ _ _ _ (free_yields _ sourceCopy) fun _ => ?_
      exact then_yields _ _ _ _ _ (free_yields 0 targetCopy) fun _ => ⟨rfl, fun leaked => absurd rfl leaked⟩
  | ok done => exact (zero_add _).symm

theorem submit_list_yields (leaky : Prop) : custody.Yields submitList 0 (Job.Good leaky) := by
  refine then_yields _ _ _ _ _ (queue_yields 0) fun queued => ?_
  cases queued with
  | error err => exact ⟨rfl, fun leaked => absurd rfl leaked⟩
  | ok done => exact (zero_add _).symm

theorem leaked_value_windows (backend : Backend) (held : Multiset Resource) (result : Status × Buf)
    (rest : Multiset Resource) (gotten : Gotten held backend result rest) (leaked : leakedValue result.1 result.2 ≠ none) : backend ≠ .windows := by
  intro windows
  rw [leakedValue] at leaked
  split at leaked
  · rename_i missing
    exact leaked (gotten.2 windows missing)
  · exact leaked rfl

theorem leaked_names_windows (backend : Backend) (held : Multiset Resource) (result : Status × Names)
    (rest : Multiset Resource) (listed : Listed held backend result rest) (leaked : leakedNames result.1 result.2 ≠ none) : backend ≠ .windows := by
  intro windows
  rw [leakedNames] at leaked
  split at leaked
  · exact leaked rfl
  · rename_i failed
    exact leaked (listed.2 windows failed)

theorem get_sync_yields (setting : Setting) (name : CString) :
    custody.Yields (getAttrSync setting name) 0 (Job.Good (setting.backend ≠ .windows)) := by
  refine filled_yields name 0 _ _ fun buffer => ?_
  refine custody.yields_bind _ _ _ _ _ (get_yields _ setting.backend name buffer (has_own buffer 0)) fun result left gotten => ?_
  have leaked := leaked_value_windows setting.backend _ result left gotten
  rw [gotten.1, own_swap]
  refine then_yields _ _ _ _ _ (free_yields _ buffer) fun _ => ?_
  refine custody.yields_bind _ _ _ _ _
    (unless_lost_yields _ _ (fun _ rest => rest = own (leakedValue result.1 result.2) 0) ?_) fun _ rest same => ?_
  · exact return_attr_yields 0 result.1 result.2
  · exact ⟨same, leaked⟩

theorem list_sync_yields (setting : Setting) :
    custody.Yields (listAttrsSync setting) 0 (Job.Good (setting.backend ≠ .windows)) := by
  refine custody.yields_bind _ _ _ _ _ (list_yields 0 setting.backend setting.junk _ rfl) fun result left listed => ?_
  have leaked := leaked_names_windows setting.backend _ result left listed
  rw [listed.1]
  refine custody.yields_bind _ _ _ _ _
    (unless_lost_yields _ _ (fun _ rest => rest = own (leakedNames result.1 result.2) 0) ?_) fun _ rest same => ?_
  · exact return_attrs_yields 0 result.1 result.2
  · exact ⟨same, leaked⟩

theorem call_yields (setting : Setting) (call : Call) :
    custody.Yields (call.program setting) 0 (Job.Good (call.leaks setting.backend)) := by
  cases call with
  | getAttr name => exact submit_name_yields _ name _ fun _ => rfl
  | getAttrSync name => exact get_sync_yields setting name
  | setAttr name len => exact submit_name_yields _ name _ fun _ => rfl
  | setAttrSync name len =>
      refine filled_yields name 0 _ _ fun buffer => ?_
      refine custody.yields_bind _ _ _ _ _ (set_yields _ setting.backend name len buffer (has_own buffer 0)) fun _ left same => ?_
      subst same
      exact then_yields _ _ _ _ _ (free_yields 0 buffer) fun _ => ⟨rfl, fun leaked => absurd rfl leaked⟩
  | removeAttr name => exact submit_name_yields _ name _ fun _ => rfl
  | removeAttrSync name =>
      refine filled_yields name 0 _ _ fun buffer => ?_
      refine custody.yields_bind _ _ _ _ _ (remove_yields _ setting.backend name buffer (has_own buffer 0)) fun _ left same => ?_
      subst same
      exact then_yields _ _ _ _ _ (free_yields 0 buffer) fun _ => ⟨rfl, fun leaked => absurd rfl leaked⟩
  | listAttrs => exact submit_list_yields _
  | listAttrsSync => exact list_sync_yields setting
  | swap source target => exact submit_swap_yields _ source target
  | swapSync source target =>
      have nulls : ∀ path ∈ [none, none], Has 0 path := fun path member => by simp_all [has_null]
      refine custody.yields_bind _ _ _ _ _
        (swap_yields 0 setting.backend setting.processId source target [none, none] nulls) fun _ left same => ?_
      exact ⟨same, fun leaked => absurd rfl leaked⟩

theorem job_keeps_blocks (job : Job) (resource : Resource) (kept : resource ∈ job.keeps) : ∃ id, resource = .block id := by
  cases job with
  | queued names work => cases kept
  | ended leaked =>
      rcases (mem_adding _ _ _).mp kept with here | nothing
      · obtain ⟨id, _, rfl⟩ := Option.map_eq_some_iff.mp here
        exact ⟨id, rfl⟩
      · cases nothing

theorem job_keeps_nothing (leaky : Prop) (sealed_ : ¬ leaky) (job : Job) (held : Multiset Resource)
    (good : job.Good leaky held) (resource : Resource) : resource ∉ job.keeps := by
  cases job with
  | queued names work => exact Multiset.notMem_zero _
  | ended leaked =>
      cases leaked with
      | none => exact Multiset.notMem_zero _
      | some id => exact absurd (good.2 fun same => by cases same) sealed_

def asking (setting : Setting) (asked : Call → Prop) (program : ResourceProgram Job) : Prop :=
  ∃ call, asked call ∧ program = call.program setting

def Reachable (setting : Setting) (asked : Call → Prop) : Crew ResourceOp ResourceAnswer Job Resource → Prop :=
  Crew.Reachable custody (children setting) Job.keeps (asking setting asked)

theorem calls_fair (setting : Setting) (asked : Call → Prop) :
    Crew.Fair custody (children setting) Job.keeps (asking setting asked)
      (Job.Good (∃ call, asked call ∧ call.leaks setting.backend)) where
  begins program asks := by
    obtain ⟨call, may, rfl⟩ := asks
    refine custody.yields_mono _ _ _ _ (fun job held good => ?_) (call_yields setting call)
    cases job with
    | ended leaked => exact ⟨good.1, fun some_ => ⟨call, may, good.2 some_⟩⟩
    | queued names work => exact good
  divides job held good := by
    cases job with
    | ended leaked => exact ⟨[], ⟨rfl, fun _ member => by cases member⟩, good.1.trans (add_zero _).symm⟩
    | queued names work =>
        refine ⟨[(freeing names, owned names), (work.program setting, owned work.copies)], ?_, ?_⟩
        · exact Crew.shared_cons custody _ _ _ _ _ (freeing_yields _ names)
            (Crew.shared_cons custody _ _ _ [] [] (work_yields setting _ work) ⟨rfl, fun _ member => by cases member⟩)
        · rw [good, Crew.total_cons, Crew.total_cons]
          change _ = 0 + (owned names + (owned work.copies + 0))
          rw [zero_add, add_zero]

-- A thread whose scan has left its block may touch anything.
def MayTouch (op : ResourceOp) (resource : Resource) : Prop := op = .lost ∨ custody.Touches op resource

def NoneLost (crew : Crew ResourceOp ResourceAnswer Job Resource) : Prop :=
  ∀ before op next after, crew.threads = before ++ .call op next :: after → op ≠ .lost

theorem resources_kept (setting : Setting) (asked : Call → Prop) (crew : Crew ResourceOp ResourceAnswer Job Resource)
    (reachable : Reachable setting asked crew) (within : NoneLost crew) :
    (∀ before op next after, crew.threads = before ++ .call op next :: after →
      ∀ resource, MayTouch op resource → resource ∈ crew.live) ∧
      (∀ before op next between op' next' after,
        crew.threads = before ++ .call op next :: (between ++ .call op' next' :: after) →
        ∀ resource, MayTouch op resource → ¬ MayTouch op' resource) ∧
      (crew.threads = [] → (∀ resource ∈ crew.live, ∃ id, resource = .block id) ∧
        ((∀ call, asked call → ¬ call.leaks setting.backend) → crew.live = 0)) := by
  have fair := calls_fair setting asked
  refine ⟨fun before op next after threads resource may => ?_,
    fun before op next between op' next' after threads resource may may' => ?_, fun idle => ?_⟩
  · have touches := may.resolve_left (within before op next after threads)
    exact Crew.crew_live custody _ _ _ _ fair crew reachable before after op next threads resource touches
  · have touches := may.resolve_left (within before op next _ threads)
    have touches' := may'.resolve_left (within (before ++ .call op next :: between) op' next' after (by simp [threads]))
    exact Crew.crew_apart custody _ _ _ _ fair crew reachable before between after op op' next next' threads resource
      touches touches'
  · rw [Crew.crew_left custody _ _ _ _ fair crew reachable idle]
    refine ⟨Crew.crew_within custody _ _ _ _ fair _ (fun job held good resource member => ?_) crew reachable, fun none_ => ?_⟩
    · exact job_keeps_blocks job resource member
    · refine Multiset.eq_zero_of_forall_notMem fun resource member => ?_
      refine Crew.crew_within custody _ _ _ _ fair (fun _ => False) (fun job held good resource member => ?_) crew reachable
        resource member
      exact job_keeps_nothing _ (fun ⟨call, may, leaks⟩ => none_ call may leaks) job held good resource member

def sampleSetting : Setting := ⟨.posix .linux, 1, fun _ => 0⟩

def queuedGet : Crew ResourceOp ResourceAnswer Job Resource where
  threads := [freeing [some 0], (Work.getAttr [0x61] (some 1)).program sampleSetting]
  live := .block 1 ::ₘ .block 0 ::ₘ 0
  left := 0

theorem queued_get_reachable : Reachable sampleSetting (fun _ => True) queuedGet :=
  .head (.start _ ⟨.getAttr [0x61], trivial, rfl⟩) <|
  .head (.call [] [] _ _ (some 0) rfl trivial fun _ _ => Multiset.notMem_zero _) <|
  .head (.call [] [] _ _ () rfl trivial fun _ gained => by cases gained) <|
  .head (.call [] [] _ _ () rfl trivial fun _ gained => by cases gained) <|
  .head (.call [] [] _ _ (some 1) rfl trivial fun _ gained => by cases gained; decide) <|
  .head (.call [] [] _ _ () rfl trivial fun _ gained => by cases gained) <|
  .head (.call [] [] _ _ (.ok ()) rfl trivial fun _ gained => by cases gained) <|
  .single (.ret [] [] (Job.queued [some 0] (.getAttr [0x61] (some 1))) rfl)

theorem queued_get_within : NoneLost queuedGet := by
  rintro before op next after threads rfl
  have member : .call .lost next ∈ queuedGet.threads := threads ▸ List.mem_append_right before (.head _)
  rcases List.mem_cons.mp member with freed | member
  · cases freed
  · cases List.mem_singleton.mp member

theorem queued_get_kept :
    .block 0 ∈ queuedGet.live ∧ ¬ MayTouch (.buffer (.xattr [some 1])) (.block 0) := by
  obtain ⟨live, apart, _⟩ := resources_kept sampleSetting _ queuedGet queued_get_reachable queued_get_within
  exact ⟨live [] _ _ _ rfl (.block 0) (.inr (.inr rfl)), apart [] _ _ [] _ _ [] rfl (.block 0) (.inr (.inr rfl))⟩

end FsExt.Binding.Resources
