import FsExt.Attr.Windows

set_option autoImplicit false

namespace FsExt.Attr.Windows

open Sys

def SpellsMain (naming : StreamNaming) (name : CString) : Prop :=
  ∃ type, naming.spells type = true ∧ streamName name = .ok (colon :: colon :: type)

def Untouched (file file' : NtFile) : Prop := file'.main = file.main ∧ file'.present = file.present

structure SparesMain (naming : StreamNaming) (name : CString) : Prop where
  set : ∀ value file, Program.Ensures (ntCalls naming) (fun _ _ => True) (setAttr name value) file
    fun _ final => Untouched file final
  remove : ∀ file, Program.Ensures (ntCalls naming) (fun _ _ => True) (removeAttr name) file
    fun _ final => Untouched file final
  get : ∀ value file, Program.Ensures (ntCalls naming) (fun _ _ => True) (getAttr name value) file
    fun answer _ => answer.1 = .ok () →
      ∃ stream content, file.streams stream = some content ∧ answer.2.contents = bytes content

theorem path_opens_named (naming : StreamNaming) (name : CString) (path : List UInt16) (stream : Stream)
    (spared : ¬ SpellsMain naming name) (named : streamName name = .ok path) (opened : naming.opens path = some stream) :
    ∃ word, stream = .named word := by
  cases stream with
  | named word => exact ⟨word, rfl⟩
  | unnamed =>
      obtain ⟨type, spelled, same⟩ := naming.only path opened
      exact absurd ⟨type, spelled, same ▸ named⟩ spared

theorem set_spares (naming : StreamNaming) (name : CString) (spared : ¬ SpellsMain naming name) (value : UvBuf)
    (file : NtFile) :
    Program.Ensures (ntCalls naming) (fun _ _ => True) (setAttr name value) file fun _ final => Untouched file final := by
  rw [setAttr]
  cases named : streamName name with
  | error err => exact ⟨rfl, rfl⟩
  | ok path =>
      refine ⟨trivial, fun created file' create => ?_⟩
      cases created with
      | error err =>
          obtain rfl : file' = file := create
          exact ⟨rfl, rfl⟩
      | ok handle =>
          obtain ⟨opened, rfl⟩ : naming.opens path = some handle ∧ file' = file.put handle [] := create
          obtain ⟨word, rfl⟩ := path_opens_named naming name path handle spared named opened
          refine ⟨trivial, fun written file'' write => ⟨trivial, fun _ final close => ?_⟩⟩
          obtain rfl : final = file'' := close
          cases written with
          | error err =>
              obtain ⟨content, rfl⟩ : ∃ content, final = (file.put (.named word) []).put (.named word) content := write
              exact ⟨rfl, rfl⟩
          | ok count =>
              obtain ⟨_, _, _, _, _, rfl⟩ := write
              exact ⟨rfl, rfl⟩

theorem remove_spares (naming : StreamNaming) (name : CString) (spared : ¬ SpellsMain naming name) (file : NtFile) :
    Program.Ensures (ntCalls naming) (fun _ _ => True) (removeAttr name) file fun _ final => Untouched file final := by
  rw [removeAttr]
  cases named : streamName name with
  | error err => exact ⟨rfl, rfl⟩
  | ok path =>
      refine ⟨trivial, fun found file' look => ?_⟩
      cases found with
      | error err =>
          obtain rfl : file' = file := look.2
          exact ⟨rfl, rfl⟩
      | ok handle =>
          obtain rfl : file' = file := look.2.2
          refine ⟨trivial, fun deleted file'' delete => ⟨trivial, fun _ final close => ?_⟩⟩
          obtain rfl : final = file'' := close
          cases deleted with
          | error err =>
              obtain rfl : final = file' := delete
              exact ⟨rfl, rfl⟩
          | ok done =>
              obtain ⟨stream, opened, _, rfl⟩ := delete
              obtain ⟨word, rfl⟩ := path_opens_named naming name path stream spared named opened
              exact ⟨rfl, rfl⟩

theorem get_reads_named (naming : StreamNaming) (name : CString) (spared : ¬ SpellsMain naming name) (value : UvBuf)
    (file : NtFile) :
    Program.Ensures (ntCalls naming) (fun _ _ => True) (getAttr name value) file fun answer _ =>
      answer.1 = .ok () → ∃ stream content, file.streams stream = some content ∧ answer.2.contents = bytes content := by
  rw [getAttr]
  cases named : streamName name with
  | error err => exact fun ok => by cases ok
  | ok path =>
      refine ⟨trivial, fun found file' look => ?_⟩
      cases found with
      | error err => exact fun ok => by cases ok
      | ok handle =>
          obtain ⟨opened, _, rfl⟩ : naming.opens path = some handle ∧ file.content handle ≠ none ∧ file' = file := look
          obtain ⟨word, rfl⟩ := path_opens_named naming name path handle spared named opened
          refine ⟨trivial, fun queried file'' query => ?_⟩
          cases queried with
          | error err => exact ⟨trivial, fun _ _ _ ok => by cases ok⟩
          | ok length =>
              obtain ⟨content, held, rfl, rfl⟩ : ∃ content, file'.content (.named word) = some content ∧
                length = content.length ∧ file'' = file' := query
              refine ⟨trivial, fun read after reading => ⟨trivial, fun _ final close => ?_⟩⟩
              cases read with
              | error err => exact fun ok => by cases ok
              | ok data =>
                  obtain ⟨content', held', rfl, rfl⟩ : ∃ content', file''.content (.named word) = some content' ∧
                    data = content'.take _ ∧ after = file'' := reading
                  obtain rfl : content = content' := Option.some.inj (held.symm.trans held')
                  intro ok
                  refine ⟨word, content, held, ?_⟩
                  by_cases whole : (content.take (uvBufInit (malloc content.length) content.length).len).length =
                      content.length
                  · exact read_whole content whole
                  · simp only [ne_eq, whole, not_false_eq_true, if_true] at ok
                    cases ok

theorem spelled_reads_main (naming : StreamNaming) (name : CString) (spelled : SpellsMain naming name) :
    ¬ SparesMain naming name := by
  obtain ⟨type, spells, named⟩ := spelled
  intro spares
  let file : NtFile := ⟨true, [1], fun _ => none⟩
  have get := spares.get ⟨none, 0⟩ file
  simp only [getAttr, named] at get
  have opened := get.2 (.ok .unnamed) file ⟨naming.main type spells, by simp [file, NtFile.content], rfl⟩
  have sized := opened.2 (.ok 1) file ⟨[1], rfl, rfl, rfl⟩
  have read := sized.2 (.ok [1]) file ⟨[1], rfl, rfl, rfl⟩
  obtain ⟨stream, content, held, _⟩ := read.2 () file rfl rfl
  cases held

theorem attrs_spare_main_iff (naming : StreamNaming) (name : CString) :
    SparesMain naming name ↔ ¬ SpellsMain naming name :=
  ⟨fun spares spelled => spelled_reads_main naming name spelled spares, fun spared =>
    ⟨set_spares naming name spared, remove_spares naming name spared, get_reads_named naming name spared⟩⟩

def upcase (unit : UInt16) : UInt16 := if 0x61 ≤ unit ∧ unit ≤ 0x7A then unit - 0x20 else unit

def spellsData (type : List UInt16) : Bool := type.map upcase = utf16 "$DATA".toList

-- The path split at its colons. Only an unnamed stream needs a type.
def openedStream : List UInt16 → Option Stream
  | first :: second :: rest =>
      if first ≠ colon then none
      else if second = colon then if spellsData rest then some .unnamed else none
      else
        match (second :: rest).dropWhile (· ≠ colon) with
        | [] => some (.named (second :: rest))
        | _ :: type => if spellsData type then some (.named ((second :: rest).takeWhile (· ≠ colon))) else none
  | _ => none

theorem opened_unnamed (path : List UInt16) (opened : openedStream path = some .unnamed) :
    ∃ type, spellsData type = true ∧ path = colon :: colon :: type := by
  match path with
  | [] => cases opened
  | [_] => cases opened
  | first :: second :: rest =>
      simp only [openedStream] at opened
      by_cases start : first = colon
      · by_cases main : second = colon
        · simp only [start, main, ne_eq, not_true_eq_false, if_false, if_true] at opened
          split at opened
          · rename_i spells
            exact ⟨rest, spells, by rw [start, main]⟩
          · cases opened
        · simp only [start, main, ne_eq, not_true_eq_false, if_false] at opened
          split at opened
          · cases opened
          · split at opened <;> cases opened
      · simp only [start, ne_eq, not_false_eq_true, if_true] at opened
        cases opened

theorem opened_named (name rest : List UInt16) (some_ : name ≠ []) (plain : colon ∉ name) :
    openedStream (colon :: name ++ rest) =
      match rest.dropWhile (· ≠ colon) with
      | [] => some (.named (name ++ rest))
      | _ :: type => if spellsData type then some (.named (name ++ rest.takeWhile (· ≠ colon))) else none := by
  have all : ∀ unit ∈ name, (decide (unit ≠ colon)) = true := fun unit member => by
    simpa using fun same : unit = colon => plain (same ▸ member)
  cases name with
  | nil => exact absurd rfl some_
  | cons unit name =>
      have start : unit ≠ colon := fun same => plain (same ▸ .head _)
      simp only [List.cons_append, openedStream, ne_eq, not_true_eq_false, if_false, start]
      rw [← List.cons_append, List.takeWhile_append_of_pos all, List.dropWhile_append_of_pos all]
      rfl

theorem opened_plain (name : List UInt16) (some_ : name ≠ []) (plain : colon ∉ name) :
    openedStream (colon :: name) = some (.named name) := by
  simpa using opened_named name [] some_ plain

def documentedNaming : StreamNaming where
  opens := openedStream
  spells := spellsData
  data := by decide
  lettered name some_ _ letters := ⟨name, opened_plain name some_ fun inside => absurd (letters colon inside) (by decide)⟩
  main type spells := by simp [openedStream, spells]
  only := opened_unnamed

theorem plain_name_spares_main : SparesMain documentedNaming (utf8 "user.a".toList) := by
  refine (attrs_spare_main_iff documentedNaming (utf8 "user.a".toList)).mpr ?_
  have named : streamName (utf8 "user.a".toList) = .ok (colon :: utf16 "user.a".toList) := by
    simp only [streamName, multiByteToWideChar, decode_utf8]
    decide
  intro spelled
  obtain ⟨type, _, same⟩ := spelled
  rw [named] at same
  simp [colon, utf16, utf16Char] at same

theorem data_name_reads_main : ¬ SparesMain documentedNaming (utf8 ":$DATA".toList) :=
  spelled_reads_main documentedNaming (utf8 ":$DATA".toList) ⟨utf16 "$DATA".toList, documentedNaming.data, by
    simp only [streamName, multiByteToWideChar, decode_utf8]
    decide⟩

end FsExt.Attr.Windows
