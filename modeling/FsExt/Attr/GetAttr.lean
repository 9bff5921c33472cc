import FsExt.Attr.Xattr

set_option autoImplicit false

namespace FsExt.Attr

open Sys

-- `fs_ext__get_attr` of both systems. They differ in what they return for the
-- error of the size query. The caller has initialised `value`.
def getAttrWith (sizeError : Option UvError → Status) (name : CString) (value : UvBuf) :
    XattrProgram (Status × UvBuf) := do
  let size ← fgetxattr name true 0
  if narrow size.res = -1 then
    return (sizeError size.errno, value)
  else
    let value := uvBufInit (malloc (narrow size.res)) (narrow size.res)
    let content ← fgetxattr name value.base.isNone value.len
    return (if narrow content.res = -1 then translate content.errno else .ok (), value.fill content.written)

def sizeError : Platform → Option UvError → Status
  | .linux, errno => translate errno
  | .apple, errno => if errno = some .ENOATTR then .error .ENODATA else translate errno

def Linux.getAttr : CString → UvBuf → XattrProgram (Status × UvBuf) := getAttrWith (sizeError .linux)

def Apple.getAttr : CString → UvBuf → XattrProgram (Status × UvBuf) := getAttrWith (sizeError .apple)

def getAttr : Platform → CString → UvBuf → XattrProgram (Status × UvBuf)
  | .linux => Linux.getAttr
  | .apple => Apple.getAttr

inductive AttrOutcome where
  | buffer (contents : Block)
  | null
  | error (err : UvError)

def shownAttr : Status × UvBuf → AttrOutcome
  | (.error .ENODATA, _) => .null
  | (.error err, _) => .error err
  | (.ok (), value) => .buffer value.contents

def getAttrOutcome (platform : Platform) (name : CString) : XattrProgram AttrOutcome := do
  return shownAttr (← getAttr platform name (uvBufInit none 0))

def Honest (name : CString) (seen : List AttrFile) : AttrOutcome → Prop
  | .buffer contents => ∃ file ∈ seen, ∃ value, file.lookup name = some value ∧ contents = bytes value
  | .null => ∃ file ∈ seen, file.lookup name = none
  | .error err => err ≠ .ENODATA ∧ err ≠ .ENOATTR

inductive Met where
  | trouble
  | absent
  | value (content : List UInt8)

def AttrFile.met (name : CString) (file : AttrFile) : Met :=
  match file.trouble with
  | some _ => .trouble
  | none =>
      match file.lookup name with
      | none => .absent
      | some value => .value value

-- When the outcome is right: there is something to read and its size survives
-- the conversion to `int`, and then the second call meets
--   other trouble, or the attribute removed (on Linux), or a value of that size,
--   or a longer one, with which it fails. A size that has become negative is
--   only refused by Linux, and only if there is something to copy. A size of
--   zero makes the second call of Linux another size query.
def ReadsWell (platform : Platform) (first second : Met) : Prop :=
  match first with
  | .trouble | .absent => True
  | .value content =>
      narrow content.length ≠ -1 ∧
        match second with
        | .trouble => True
        | .absent => platform = .linux
        | .value later =>
            if narrow content.length < 0 then platform = .linux ∧ later ≠ []
            else narrow content.length ≤ later.length ∧
              (platform = .linux → narrow content.length = 0 →
                later = [] ∨ content = [] ∧ narrow later.length ≠ -1)

def afterContent (size : XattrResult) (content : XattrResult) : AttrOutcome :=
  shownAttr (if narrow content.res = -1 then translate content.errno else .ok (),
    (uvBufInit (malloc (narrow size.res)) (narrow size.res)).fill content.written)

def afterSize (platform : Platform) (name : CString) (size : XattrResult) : XattrProgram AttrOutcome :=
  if narrow size.res = -1 then .ret (shownAttr (sizeError platform size.errno, uvBufInit none 0))
  else
    .call (.fgetxattr name (malloc (narrow size.res)).isNone (narrow size.res % 2 ^ 32).toNat) fun content =>
      .ret (afterContent size content)

theorem get_attr_outcome_calls (platform : Platform) (name : CString) :
    getAttrOutcome platform name = .call (.fgetxattr name true 0) (afterSize platform name) := by
  have one : getAttr platform name (uvBufInit none 0) = getAttrWith (sizeError platform) name (uvBufInit none 0) := by
    cases platform <;> rfl
  rw [getAttrOutcome, one]
  rw [getAttrWith, fgetxattr]
  simp only [Program.perform_bind, Program.call_bind]
  congr 1
  funext size
  rw [afterSize]
  split
  · rfl
  · rfl

theorem shown_error (err : UvError) (value : UvBuf) (present : err ≠ .ENODATA) :
    shownAttr (.error err, value) = .error err := by
  cases err <;> first | rfl | exact absurd rfl present

theorem size_error_unrelated (platform : Platform) (err : UvError) (related : err ≠ .ENODATA ∧ err ≠ .ENOATTR) :
    sizeError platform (some err) = .error err := by
  cases platform with
  | linux => rfl
  | apple => exact if_neg (by simpa using related.2)

theorem size_error_missing (platform : Platform) : sizeError platform (some (missing platform)) = .error .ENODATA := by
  cases platform with
  | linux => rfl
  | apple => rfl

theorem after_size_failed (platform : Platform) (name : CString) (size : XattrResult) (failed : narrow size.res = -1) :
    afterSize platform name size = .ret (shownAttr (sizeError platform size.errno, uvBufInit none 0)) :=
  if_pos failed

theorem after_content_error (size content : XattrResult) (err : UvError)
    (reports : content.Reports (.error err)) :
    ∃ value, afterContent size content = shownAttr (.error err, value) := by
  obtain ⟨failed, errno, _⟩ := reports
  refine ⟨(uvBufInit (malloc (narrow size.res)) (narrow size.res)).fill content.written, ?_⟩
  rw [afterContent, failed, errno, if_pos narrow_minus_one, translate]

theorem after_content_ok (size content : XattrResult) (succeeded : narrow content.res ≠ -1) :
    afterContent size content =
      .buffer ((uvBufInit (malloc (narrow size.res)) (narrow size.res)).fill content.written).contents := by
  rw [afterContent, if_neg succeeded]
  rfl

theorem met_cases (name : CString) (file : AttrFile) :
    (∃ trouble, file.trouble = some trouble ∧ file.met name = .trouble) ∨
      (file.trouble = none ∧ file.lookup name = none ∧ file.met name = .absent) ∨
      ∃ value, file.trouble = none ∧ file.lookup name = some value ∧ file.met name = .value value := by
  rw [AttrFile.met]
  cases trouble : file.trouble with
  | some what => exact .inl ⟨what, rfl, rfl⟩
  | none =>
      cases found : file.lookup name with
      | none => exact .inr (.inl ⟨rfl, rfl, rfl⟩)
      | some value => exact .inr (.inr ⟨value, rfl, rfl, rfl⟩)

theorem second_call_honest (platform : Platform) (name : CString) (seen : List AttrFile) (file file' : AttrFile)
    (value : List UInt8) (size content : XattrResult) (member : file ∈ seen) (member' : file' ∈ seen)
    (held : file.lookup name = some value) (sized : size.res = value.length)
    (reports : content.Reports (file'.reply platform
      (.fgetxattr name (malloc (narrow size.res)).isNone (narrow size.res % 2 ^ 32).toNat)))
    (well : ReadsWell platform (.value value) (file'.met name)) : Honest name seen (afterContent size content) := by
  obtain ⟨bound, small⟩ := narrow_bounds size.res
  obtain ⟨_, well⟩ := well
  rw [← sized] at well
  generalize narrow_ : narrow size.res = s at *
  have fails : ∀ err, content.Reports (.error err) → err ≠ .ENODATA ∧ err ≠ .ENOATTR →
      Honest name seen (afterContent size content) := by
    intro err failed unrelated
    obtain ⟨rest, outcome⟩ := after_content_error size content err failed
    rw [outcome, shown_error err rest unrelated.1]
    exact unrelated
  rcases met_cases name file' with ⟨trouble, inTrouble, _⟩ | ⟨fine, gone, met⟩ | ⟨later, fine, held', met⟩
  · simp only [AttrFile.reply, inTrouble] at reports
    exact fails _ reports trouble.unrelated
  · rw [met] at well
    have onLinux : platform = .linux := well
    subst platform
    simp only [AttrFile.reply, fine, gone, missing] at reports
    obtain ⟨rest, outcome⟩ := after_content_error size content .ENODATA reports
    rw [outcome]
    exact ⟨file', member', gone⟩
  · rw [met] at well
    simp only [AttrFile.reply, fine, held'] at reports
    simp only at well
    by_cases negative : s < 0
    · rw [if_pos negative] at well
      obtain ⟨rfl, some_⟩ := well
      rw [transfer_negative .linux s _ later negative (by omega), if_neg (by decide)] at reports
      split at reports
      · exact fails _ reports (by decide)
      · exact fails _ reports (by decide)
    · have positive : 0 ≤ s := by omega
      rw [if_neg negative] at well
      rw [transfer_small platform s _ later positive (by omega)] at reports
      split at reports
      · rename_i query
        obtain ⟨rfl, zero⟩ := query
        obtain ⟨res, written⟩ := reports
        have empty := well.2 rfl zero
        have none_ : narrow content.res ≠ -1 := by
          rw [res]
          rcases empty with rfl | ⟨_, kept⟩
          · decide
          · exact kept
        rw [after_content_ok size content none_, narrow_, fill_contents s _ positive (by omega) (by simp [written]), written]
        rcases empty with rfl | ⟨rfl, _⟩
        · exact ⟨file', member', [], held', by simp [zero, blank, bytes]⟩
        · exact ⟨file, member, [], held, by simp [zero, blank, bytes]⟩
      · split at reports
        · exact fails _ reports (by decide)
        · rename_i fits
          obtain ⟨res, written⟩ := reports
          have exact_ : later.length = s := by omega
          have kept : narrow content.res ≠ -1 := by
            rw [res, narrow_small later.length (by omega)]
            omega
          rw [after_content_ok size content kept, narrow_,
            fill_contents s _ positive (by omega) (by rw [written]; omega), written]
          exact ⟨file', member', later, held', by simp [← exact_, blank]⟩

theorem run_honest (platform : Platform) (name : CString) (first second : Met) (start : AttrFile)
    (asked seen : List AttrFile) (outcome : AttrOutcome) (final : AttrFile)
    (runs : Program.Runs (xattrCalls platform) Others start (getAttrOutcome platform name) asked seen outcome final)
    (meets : asked.map (AttrFile.met name) <+: [first, second]) (well : ReadsWell platform first second) :
    Honest name seen outcome := by
  rw [get_attr_outcome_calls] at runs
  obtain ⟨file, size, _, asked', seen', rfl, member, subset, ⟨reports, _⟩, rest⟩ :=
    Program.runs_call _ _ _ _ _ _ _ _ _ runs
  obtain ⟨rfl, meets'⟩ := List.cons_prefix_cons.mp meets
  rcases met_cases name file with ⟨trouble, inTrouble, _⟩ | ⟨fine, gone, _⟩ | ⟨value, fine, held, met⟩
  · simp only [AttrFile.reply, inTrouble] at reports
    obtain ⟨res, errno, _⟩ := reports
    rw [after_size_failed platform name size (by rw [res]; exact narrow_minus_one), errno,
      size_error_unrelated platform _ trouble.unrelated] at rest
    obtain ⟨rfl, _⟩ := Program.runs_ret _ _ _ _ _ _ _ _ rest
    rw [shown_error _ _ trouble.unrelated.1]
    exact trouble.unrelated
  · simp only [AttrFile.reply, fine, gone] at reports
    obtain ⟨res, errno, _⟩ := reports
    rw [after_size_failed platform name size (by rw [res]; exact narrow_minus_one), errno,
      size_error_missing platform] at rest
    obtain ⟨rfl, _⟩ := Program.runs_ret _ _ _ _ _ _ _ _ rest
    exact ⟨file, member, gone⟩
  · have sized : size.res = value.length := by
      cases platform <;> simp only [AttrFile.reply, fine, held] at reports <;> exact reports.1
    rw [met] at well
    have goesOn : narrow size.res ≠ -1 := by
      rw [sized]
      exact well.1
    rw [afterSize, if_neg goesOn] at rest
    obtain ⟨file', content, _, asked'', seen'', rfl, member', _, ⟨reports', _⟩, rest'⟩ :=
      Program.runs_call _ _ _ _ _ _ _ _ _ rest
    obtain ⟨rfl, _⟩ := List.cons_prefix_cons.mp meets'
    obtain ⟨rfl, _⟩ := Program.runs_ret _ _ _ _ _ _ _ _ rest'
    exact second_call_honest platform name seen file file' value size content member (subset member') held sized
      reports' well

def single (name : AttrName) (value : Option (List UInt8)) : AttrFile where
  attrs := (value.map fun content => (name, content)).toList
  distinct := by cases value <;> simp
  trouble := none

theorem single_lookup (name : AttrName) (value : Option (List UInt8)) : (single name value).lookup name.name = value := by
  cases value <;> simp [single, AttrFile.lookup]

theorem single_others (name : AttrName) (before after : Option (List UInt8)) :
    Others (single name before) (single name after) := by
  refine ⟨name.name, fun other different => ?_⟩
  cases before <;> cases after <;> simp [single, AttrFile.lookup, Ne.symm different]

theorem single_reply (platform : Platform) (name : AttrName) (value : Option (List UInt8)) (null : Bool) (size : Nat) :
    (single name value).reply platform (.fgetxattr name.name null size) =
      match value with
      | none => .error (missing platform)
      | some content => transfer platform null size content := by
  have fine : (single name value).trouble = none := rfl
  cases value <;> simp [AttrFile.reply, fine, single_lookup]

theorem single_met (name : AttrName) (value : Option (List UInt8)) :
    (single name value).met name.name = match value with
      | none => .absent
      | some content => .value content := by
  have fine : (single name value).trouble = none := rfl
  simp only [AttrFile.met, fine, single_lookup]

theorem size_query_reports (platform : Platform) (value : List UInt8) (errno : Option UvError) :
    (⟨value.length, errno, []⟩ : XattrResult).Reports (transfer platform true 0 value) := by
  cases platform <;> exact ⟨rfl, rfl⟩

theorem two_call_run (platform : Platform) (other : AttrFile → AttrFile → Prop) (name : AttrName) (value : List UInt8)
    (later : Option (List UInt8)) (errno : Option UvError) (content : XattrResult)
    (changes : other (single name (some value)) (single name later)) (goesOn : narrow value.length ≠ -1)
    (reports : content.Reports ((single name later).reply platform
      (.fgetxattr name.name (malloc (narrow value.length)).isNone (narrow value.length % 2 ^ 32).toNat))) :
    Program.Runs (xattrCalls platform) other (single name (some value)) (getAttrOutcome platform name.name)
      [single name (some value), single name later]
      [single name (some value), single name (some value), single name later, single name later]
      (afterContent ⟨value.length, errno, []⟩ content) (single name later) := by
  have sized : (⟨value.length, errno, []⟩ : XattrResult).Reports
      ((single name (some value)).reply platform (.fgetxattr name.name true 0)) := by
    rw [single_reply]
    exact size_query_reports platform value errno
  rw [get_attr_outcome_calls]
  refine .call _ _ _ _ ⟨value.length, errno, []⟩ _ _ _ _ ⟨sized, rfl⟩ ?_
  refine .other _ _ _ _ _ _ _ changes ?_
  rw [afterSize, if_neg goesOn]
  exact .call _ _ _ _ content _ _ _ _ ⟨reports, rfl⟩ (.ret _ _)

theorem lost_run (platform : Platform) (other : AttrFile → AttrFile → Prop) (name : AttrName) (value : List UInt8)
    (lost : narrow value.length = -1) :
    Program.Runs (xattrCalls platform) other (single name (some value)) (getAttrOutcome platform name.name)
      [single name (some value)] [single name (some value), single name (some value)] (.buffer [])
      (single name (some value)) := by
  have reports : (⟨value.length, none, []⟩ : XattrResult).Reports
      ((single name (some value)).reply platform (.fgetxattr name.name true 0)) := by
    rw [single_reply]
    exact size_query_reports platform value none
  rw [get_attr_outcome_calls]
  refine .call _ _ _ _ ⟨value.length, none, []⟩ _ _ _ _ ⟨reports, rfl⟩ ?_
  have ends : afterSize platform name.name ⟨value.length, none, []⟩ = .ret (.buffer []) := by
    rw [after_size_failed platform name.name ⟨value.length, none, []⟩ lost]
    cases platform <;> rfl
  rw [ends]
  exact .ret _ _

def Dishonest (platform : Platform) (name : AttrName) (first second : Met) : Prop :=
  ∃ start asked seen outcome final,
    Program.Runs (xattrCalls platform) Others start (getAttrOutcome platform name.name) asked seen outcome final ∧
      asked.map (AttrFile.met name.name) <+: [first, second] ∧ ¬ Honest name.name seen outcome

theorem dishonest_two (platform : Platform) (name : AttrName) (value : List UInt8) (later : Option (List UInt8))
    (content : XattrResult) (second : Met) (goesOn : narrow value.length ≠ -1)
    (reports : content.Reports (match later with
      | none => .error (missing platform)
      | some after => transfer platform (malloc (narrow value.length)).isNone (narrow value.length % 2 ^ 32).toNat after))
    (meets : (single name later).met name.name = second)
    (wrong : ¬ Honest name.name [single name (some value), single name (some value), single name later, single name later]
      (afterContent ⟨value.length, none, []⟩ content)) : Dishonest platform name (.value value) second := by
  refine ⟨_, _, _, _, _, two_call_run platform Others name value later none content
    (single_others name (some value) later) goesOn ?_, ?_, wrong⟩
  · rw [single_reply]
    exact reports
  · simp [single_met name (some value), meets]

theorem unwritten_dishonest (name : CString) (seen : List AttrFile) (values : List UInt8) (size : Nat)
    (some_ : 0 < size) : ¬ Honest name seen (.buffer (bytes values ++ blank size)) := by
  intro honest
  obtain ⟨_, _, value, _, same⟩ := honest
  exact bytes_blank_not_bytes values value size some_ same

theorem blank_dishonest (name : CString) (seen : List AttrFile) (size : Nat) (some_ : 0 < size) :
    ¬ Honest name seen (.buffer (blank size)) :=
  unwritten_dishonest name seen [] size some_

theorem lost_dishonest (platform : Platform) (name : AttrName) (value : List UInt8) (second : Met)
    (lost : narrow value.length = -1) : Dishonest platform name (.value value) second := by
  refine ⟨_, _, _, _, _, lost_run platform Others name value lost, by simp [single_met name (some value)], ?_⟩
  intro honest
  obtain ⟨file, member, other, held, same⟩ := honest
  have only : file = single name (some value) := by simpa using member
  have empty := bytes_injective [] other same
  rw [only, single_lookup, ← empty] at held
  cases held
  exact absurd lost (by decide)

theorem removed_dishonest (name : AttrName) (value : List UInt8) (goesOn : narrow value.length ≠ -1) :
    Dishonest .apple name (.value value) .absent := by
  refine dishonest_two .apple name value none ⟨-1, some .ENOATTR, []⟩ .absent goesOn ⟨rfl, rfl, rfl⟩ rfl ?_
  obtain ⟨rest, outcome⟩ := after_content_error ⟨value.length, none, []⟩ ⟨-1, some .ENOATTR, []⟩ .ENOATTR
    ⟨rfl, rfl, rfl⟩
  rw [outcome]
  exact fun honest => honest.2 rfl

theorem short_dishonest (platform : Platform) (name : AttrName) (value later : List UInt8)
    (goesOn : narrow value.length ≠ -1) (positive : 0 ≤ narrow value.length) (query : platform ≠ .linux ∨ narrow value.length ≠ 0)
    (short : later.length < narrow value.length) : Dishonest platform name (.value value) (.value later) := by
  obtain ⟨bound, small⟩ := narrow_bounds value.length
  have fills : ¬ (platform = .linux ∧ narrow value.length = 0) := fun both => query.elim (absurd both.1) (absurd both.2)
  have kept : narrow later.length ≠ -1 := by
    rw [narrow_small later.length (by omega)]
    omega
  refine dishonest_two platform name value (some later) ⟨later.length, none, later⟩ (.value later) goesOn ?_
    (single_met name (some later)) ?_
  · have whole : transfer platform (malloc (narrow value.length)).isNone (narrow value.length % 2 ^ 32).toNat later =
        .ok (later.length, later) := by
      rw [transfer_small platform (narrow value.length) _ later positive (by omega), if_neg fills, if_neg (by omega)]
    simp only [whole]
    exact ⟨rfl, rfl⟩
  · have fits : later.length ≤ (narrow value.length).toNat := by omega
    rw [after_content_ok ⟨value.length, none, []⟩ ⟨later.length, none, later⟩ kept,
      fill_contents (narrow value.length) later positive (by omega) fits]
    exact unwritten_dishonest name.name _ later _ (by omega)

theorem asked_again_dishonest (name : AttrName) (value later : List UInt8) (zero : narrow value.length = 0)
    (some_ : later ≠ []) (lost : value ≠ [] ∨ narrow later.length = -1) :
    Dishonest .linux name (.value value) (.value later) := by
  have goesOn : narrow value.length ≠ -1 := by omega
  have again : transfer .linux (malloc (narrow value.length)).isNone (narrow value.length % 2 ^ 32).toNat later =
      .ok (later.length, []) := by
    rw [transfer_small .linux (narrow value.length) _ later (by omega) (by omega), if_pos ⟨rfl, zero⟩]
  have empty : ∀ content : XattrResult, content.written = [] →
      ((uvBufInit (malloc (narrow value.length)) (narrow value.length)).fill content.written).contents = [] := by
    intro content nothing
    rw [nothing, fill_contents (narrow value.length) [] (by omega) (by omega) (by simp), zero]
    rfl
  by_cases again_ : narrow later.length = -1
  · refine dishonest_two .linux name value (some later) ⟨later.length, some .ENODATA, []⟩ (.value later) goesOn ?_
      (single_met name (some later)) ?_
    · simp only [again]
      exact ⟨rfl, rfl⟩
    · have ends : afterContent ⟨value.length, none, []⟩ ⟨later.length, some .ENODATA, []⟩ = .null := by
        rw [afterContent, if_pos again_]
        rfl
      rw [ends]
      intro honest
      obtain ⟨file, member, gone⟩ := honest
      simp only [List.mem_cons, List.not_mem_nil, or_false] at member
      rcases member with rfl | rfl | rfl | rfl <;> rw [single_lookup] at gone <;> cases gone
  · have different : value ≠ [] := lost.resolve_right again_
    refine dishonest_two .linux name value (some later) ⟨later.length, none, []⟩ (.value later) goesOn ?_
      (single_met name (some later)) ?_
    · simp only [again]
      exact ⟨rfl, rfl⟩
    · rw [after_content_ok ⟨value.length, none, []⟩ ⟨later.length, none, []⟩ again_, empty ⟨later.length, none, []⟩ rfl]
      intro honest
      obtain ⟨file, member, held, found, same⟩ := honest
      have nothing := bytes_injective [] held same
      simp only [List.mem_cons, List.not_mem_nil, or_false] at member
      rcases member with rfl | rfl | rfl | rfl <;> rw [single_lookup, ← nothing] at found <;> cases found
      · exact different rfl
      · exact different rfl
      · exact some_ rfl
      · exact some_ rfl

theorem negative_dishonest (platform : Platform) (name : AttrName) (value later : List UInt8)
    (goesOn : narrow value.length ≠ -1) (negative : narrow value.length < 0)
    (accepted : platform = .apple ∨ later = []) : Dishonest platform name (.value value) (.value later) := by
  obtain ⟨bound, _⟩ := narrow_bounds value.length
  have nothing : transfer platform (malloc (narrow value.length)).isNone (narrow value.length % 2 ^ 32).toNat later =
      .ok (later.length, []) := by
    rw [transfer_negative platform (narrow value.length) _ later negative (by omega)]
    rcases accepted with rfl | rfl
    · rfl
    · cases platform <;> simp
  refine dishonest_two platform name value (some later) ⟨later.length, none, []⟩ (.value later) goesOn ?_
    (single_met name (some later)) ?_
  · simp only [nothing]
    exact ⟨rfl, rfl⟩
  · have ends : afterContent ⟨value.length, none, []⟩ ⟨later.length, none, []⟩ =
        .buffer ((uvBufInit (malloc (narrow value.length)) (narrow value.length)).fill []).contents := by
      rw [afterContent]
      split <;> rfl
    have some_ : 0 < (narrow value.length % 2 ^ 32).toNat := by omega
    rw [ends, negative_contents (narrow value.length) [] negative]
    exact blank_dishonest name.name _ _ some_

theorem not_read_well_dishonest (platform : Platform) (name : AttrName) (first second : Met)
    (bad : ¬ ReadsWell platform first second) : Dishonest platform name first second := by
  cases first with
  | trouble => exact absurd trivial bad
  | absent => exact absurd trivial bad
  | value value =>
      by_cases lost : narrow value.length = -1
      · exact lost_dishonest platform name value second lost
      · simp only [ReadsWell, lost, ne_eq, not_false_eq_true, true_and] at bad
        cases second with
        | trouble => exact absurd trivial bad
        | absent =>
            cases platform with
            | linux => exact absurd rfl bad
            | apple => exact removed_dishonest name value lost
        | value later =>
            simp only at bad
            split at bad
            · rename_i negative
              apply negative_dishonest platform name value later lost negative
              cases platform with
              | apple => exact .inl rfl
              | linux => exact .inr (by simpa using bad)
            · rename_i positive
              by_cases short : later.length < narrow value.length
              · apply short_dishonest platform name value later lost (by omega) (.inr ?_) short
                omega
              · have more : narrow value.length ≤ later.length := by omega
                simp only [more, true_and, not_forall, not_or, not_and, not_not] at bad
                obtain ⟨rfl, zero, some_, different⟩ := bad
                apply asked_again_dishonest name value later zero some_
                by_cases empty : value = []
                · exact .inr (different empty)
                · exact .inl empty

theorem get_attr_honest_iff (platform : Platform) (name : AttrName) (first second : Met) :
    (∀ start asked seen outcome final,
      Program.Runs (xattrCalls platform) Others start (getAttrOutcome platform name.name) asked seen outcome final →
        asked.map (AttrFile.met name.name) <+: [first, second] → Honest name.name seen outcome) ↔
      ReadsWell platform first second := by
  constructor
  · intro honest
    by_contra bad
    obtain ⟨start, asked, seen, outcome, final, runs, meets, wrong⟩ :=
      not_read_well_dishonest platform name first second bad
    exact wrong (honest start asked seen outcome final runs meets)
  · intro well start asked seen outcome final runs meets
    exact run_honest platform name.name first second start asked seen outcome final runs meets well

theorem get_attr_short_or_removed :
    (∃ asked seen final,
      Program.Runs (xattrCalls .linux) Others (single sampleName (some [1, 2])) (getAttrOutcome .linux sampleName.name)
        asked seen (.buffer [.byte 1, .undef]) final ∧
      ¬ Honest sampleName.name seen (.buffer [.byte 1, .undef])) ∧
      ∃ asked seen final,
        Program.Runs (xattrCalls .apple) Others (single sampleName (some [1, 2])) (getAttrOutcome .apple sampleName.name)
          asked seen (.error .ENOATTR) final ∧
        ¬ Honest sampleName.name seen (.error .ENOATTR) := by
  constructor
  · have run := two_call_run .linux Others sampleName [1, 2] (some [1]) none ⟨1, none, [1]⟩
      (single_others sampleName _ _) (by decide)
      (by rw [single_reply]; exact ⟨rfl, rfl⟩)
    exact ⟨_, _, _, run, unwritten_dishonest sampleName.name _ [1] 1 (by decide)⟩
  · have run := two_call_run .apple Others sampleName [1, 2] none none ⟨-1, some .ENOATTR, []⟩
      (single_others sampleName _ _) (by decide)
      (by rw [single_reply]; exact ⟨rfl, rfl, rfl⟩)
    exact ⟨_, _, _, run, fun honest => honest.2 rfl⟩

end FsExt.Attr
