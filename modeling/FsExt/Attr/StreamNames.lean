import FsExt.Attr.Passes

set_option autoImplicit false

namespace FsExt.Attr.Windows

open Sys

structure UnicodeString where
  length : Nat
  maximumLength : Nat
  buffer : List (Option UInt16)
deriving DecidableEq

inductive ConversionError where
  | noUnicodeTranslation
  | insufficientBuffer
deriving DecidableEq

-- CP_UTF8 with MB_ERR_INVALID_CHARS and a length of -1 into a buffer of `room`
-- characters: the terminator is converted too.
def multiByteInto (octets : CString) (room : Nat) : Except ConversionError (List UInt16) :=
  match multiByteToWideChar octets with
  | none => .error .noUnicodeTranslation
  | some wide => if wide.length + 1 ≤ room then .ok (wide ++ [0]) else .error .insufficientBuffer

def wcharSize : Nat := 2

def objectName (name : CString) : Except UvError UnicodeString :=
  match multiByteInto name (maxPath - 1) with
  | .error .insufficientBuffer => .error .ENAMETOOLONG
  | .error .noUnicodeTranslation => .error .EINVAL
  | .ok written =>
      let len := written.length
      .ok ⟨len * wcharSize % 2 ^ 16, (len + 1) * wcharSize % 2 ^ 16,
        (colon :: written).map some ++ List.replicate (maxPath - 1 - len) none⟩

def UnicodeString.path (string : UnicodeString) : List (Option UInt16) := string.buffer.take (string.length / wcharSize)

section
variable (name : CString) (text : List Char)

theorem object_name_decoded (decoded : decodeUtf8 name = some text) (short : (utf16 text).length ≤ maxPath - 2) :
    objectName name = .ok ⟨2 * (1 + (utf16 text).length), 2 * (1 + (utf16 text).length) + 2,
      (colon :: utf16 text ++ [0]).map some ++ List.replicate (maxPath - 2 - (utf16 text).length) none⟩ := by
  have size : maxPath = 260 := rfl
  have written : multiByteInto name (maxPath - 1) = .ok (utf16 text ++ [0]) := by
    rw [multiByteInto, multiByteToWideChar, decoded, Option.map_some]
    exact if_pos (by omega)
  have length : (utf16 text ++ [0]).length * wcharSize % 2 ^ 16 = 2 * (1 + (utf16 text).length) := by
    rw [List.length_append, List.length_singleton, wcharSize]
    omega
  have maximum : ((utf16 text ++ [0]).length + 1) * wcharSize % 2 ^ 16 = 2 * (1 + (utf16 text).length) + 2 := by
    rw [List.length_append, List.length_singleton, wcharSize]
    omega
  have spare : maxPath - 1 - (utf16 text ++ [0]).length = maxPath - 2 - (utf16 text).length := by
    rw [List.length_append, List.length_singleton]
    omega
  simp only [objectName, written, length, maximum, spare]
  rfl

theorem object_name_long (decoded : decodeUtf8 name = some text) (long : maxPath - 2 < (utf16 text).length) :
    objectName name = .error .ENAMETOOLONG := by
  have refused : multiByteInto name (maxPath - 1) = .error .insufficientBuffer := by
    rw [multiByteInto, multiByteToWideChar, decoded, Option.map_some]
    exact if_neg (by omega)
  simp only [objectName, refused]

theorem object_name_invalid (invalid : decodeUtf8 name = none) : objectName name = .error .EINVAL := by
  have refused : multiByteInto name (maxPath - 1) = .error .noUnicodeTranslation := by
    rw [multiByteInto, multiByteToWideChar, invalid]
    rfl
  simp only [objectName, refused]

theorem encoded_path (length : Nat) (spare : List (Option UInt16)) (same : length = 2 * (1 + (utf16 text).length)) :
    (⟨length, length + 2, (colon :: utf16 text ++ [0]).map some ++ spare⟩ : UnicodeString).path =
      (colon :: utf16 text).map some := by
  have half : length / wcharSize = ((colon :: utf16 text).map some).length := by
    rw [same, wcharSize, List.length_map, List.length_cons]
    omega
  rw [UnicodeString.path, half, List.map_append, List.append_assoc, List.take_left' rfl]

theorem stream_name_decoded (decoded : decodeUtf8 name = some text) :
    streamName name = if (utf16 text).length ≤ maxPath - 2 then .ok (colon :: utf16 text) else .error .ENAMETOOLONG := by
  have size : maxPath = 260 := rfl
  simp only [streamName, multiByteToWideChar, decoded, Option.map_some]
  exact if_congr (by omega) rfl rfl

theorem stream_name_invalid (invalid : decodeUtf8 name = none) : streamName name = .error .EINVAL := by
  simp only [streamName, multiByteToWideChar, invalid, Option.map_none]

end

structure Encodes (string : UnicodeString) (text : List Char) : Prop where
  length : string.length = 2 * (colon :: utf16 text).length
  maximum : string.maximumLength = 2 * (colon :: utf16 text ++ [0]).length
  word : string.maximumLength < 2 ^ 16
  room : string.maximumLength ≤ 2 * maxPath
  buffer : string.buffer.length = maxPath
  content : string.buffer.take (string.maximumLength / 2) = (colon :: utf16 text ++ [0]).map some

def rank (earlier : List Passes.ChainEntry) (entry : Passes.ChainEntry) (later : List Passes.ChainEntry)
    (rest : List UInt8) : Nat :=
  (Passes.shown (((Passes.visited 0 (earlier ++ entry :: later) rest).take earlier.length).map Passes.Visit.name)).length

def ReadsBack (string : UnicodeString) (name : CString) : Prop :=
  ∀ earlier entry later rest, Passes.Ended (earlier ++ entry :: later) rest → entry.front.map some = string.path →
    readWide (entry.slack ++ Passes.chain later rest) = some [] →
    ∃ listing target, listStreams (Passes.chain (earlier ++ entry :: later) rest) = some listing ∧
      listing.status = .ok () ∧ rank earlier entry later rest < listing.table.length ∧
      readPointer ((listing.table.names.getD []).drop (rank earlier entry later rest * pointerSize)) = some target ∧
      readString ((listing.table.names.getD []).drop target) = some name

def Refused (name : CString) (err : UvError) : Prop :=
  objectName name = .error err ∧ ∀ value, getAttr name value = .ret (.error err, value) ∧
    setAttr name value = .ret (.error err) ∧ removeAttr name = .ret (.error err)

theorem refused_of (name : CString) (err : UvError) (refused : objectName name = .error err)
    (same : streamName name = .error err) : Refused name err := by
  refine ⟨refused, fun value => ⟨?_, ?_, ?_⟩⟩
  · rw [getAttr, same]
    rfl
  · rw [setAttr, same]
    rfl
  · rw [removeAttr, same]
    rfl

theorem encodes_of (text : List Char) (short : (utf16 text).length ≤ maxPath - 2) :
    Encodes ⟨2 * (1 + (utf16 text).length), 2 * (1 + (utf16 text).length) + 2,
      (colon :: utf16 text ++ [0]).map some ++ List.replicate (maxPath - 2 - (utf16 text).length) none⟩ text := by
  have size : maxPath = 260 := rfl
  have whole : (colon :: utf16 text ++ [0]).length = (utf16 text).length + 2 := by simp
  constructor
  case length => rw [List.length_cons, Nat.add_comm]
  case maximum =>
    rw [whole]
    simp only
    omega
  case word => simp only; omega
  case room => simp only; omega
  case buffer =>
    rw [List.length_append, List.length_map, whole, List.length_replicate]
    omega
  case content =>
    have half : (2 * (1 + (utf16 text).length) + 2) / 2 = ((colon :: utf16 text ++ [0]).map some).length := by
      rw [List.length_map, whole]
      omega
    simp only [half, List.take_left' rfl]

theorem visited_split (earlier later : List Passes.ChainEntry) (entry : Passes.ChainEntry) (rest : List UInt8)
    (start : Nat) :
    ∃ first at_ more, first.length = earlier.length ∧ Passes.visited start (earlier ++ entry :: later) rest =
      first ++ ⟨at_, Passes.cutName entry.front (Passes.distance entry later rest)⟩ :: more := by
  induction earlier generalizing start with
  | nil => exact ⟨[], start, _, rfl, rfl⟩
  | cons other earlier ih =>
      obtain ⟨first, at_, more, long, split⟩ := ih (start + other.size)
      refine ⟨⟨start, Passes.cutName other.front (Passes.distance other (earlier ++ entry :: later) rest)⟩ :: first, at_, more,
        congrArg (· + 1) long, ?_⟩
      rw [List.cons_append, Passes.visited, split]
      rfl

theorem list_streams_table (info : List UInt8) (measured : Passes.Measured) (copied : Passes.Copied)
    (ran : Passes.listPasses wideCharToMultiByte info = some (measured, copied)) :
    ∃ listing, listStreams info = some listing ∧ listing.status = .ok () ∧
      listing.table = ⟨some copied.names, measured.length⟩ := by
  have same := Passes.list_passes_streams info
  rw [ran, Option.map_some] at same
  obtain ⟨listing, listed, table⟩ := Option.map_eq_some_iff.mp same.symm
  refine ⟨listing, listed, ?_, table⟩
  simp only [listStreams, Option.bind_eq_bind, Option.bind_eq_some_iff] at listed
  obtain ⟨_, _, _, _, made⟩ := listed
  rw [← Option.some.inj made]

theorem rank_holds (earlier later : List Passes.ChainEntry) (entry : Passes.ChainEntry) (rest : List UInt8)
    (name : List UInt16) (cut : Passes.cutName entry.front (Passes.distance entry later rest) = name)
    (some_ : name ≠ []) :
    (Passes.shown ((Passes.visited 0 (earlier ++ entry :: later) rest).map Passes.Visit.name))[
      rank earlier entry later rest]? = some name := by
  obtain ⟨first, at_, more, long, split⟩ := visited_split earlier later entry rest 0
  have before : rank earlier entry later rest = (Passes.shown (first.map Passes.Visit.name)).length := by
    rw [rank, split, List.take_left' long]
  have shown : Passes.shown ((first ++ ⟨at_, name⟩ :: more).map Passes.Visit.name) =
      Passes.shown (first.map Passes.Visit.name) ++ name :: Passes.shown (more.map Passes.Visit.name) := by
    rw [List.map_append, List.map_cons, Passes.shown, List.filter_append]
    congr 1
    exact Passes.shown_cons name _ some_
  rw [before, split, cut, shown, List.getElem?_append_right (Nat.le_refl _), Nat.sub_self, List.getElem?_cons_zero]

theorem reads_back (name : CString) (text : List Char) (string : UnicodeString) (decoded : decodeUtf8 name = some text)
    (some_ : name ≠ []) (plain : 0 ∉ name) (short : (utf16 text).length ≤ maxPath - 2)
    (path : string.path = (colon :: utf16 text).map some) : ReadsBack string name := by
  intro earlier entry later rest ended named zero
  have encoded := decoded_utf8 name text decoded
  have front : entry.front = colon :: utf16 text :=
    List.map_injective_iff.mpr (fun _ _ same => Option.some.inj same) (named.trans path)
  have inhabited : utf16 text ≠ [] := by
    cases text with
    | nil => exact absurd encoded some_
    | cons char text =>
        have units := utf16_char_length char
        intro empty
        rw [utf16, List.flatMap_cons, List.append_eq_nil_iff] at empty
        rw [empty.1] at units
        cases units
  have cut : Passes.cutName entry.front (Passes.distance entry later rest) = utf16 text := by
    rw [Passes.distance, Passes.beyond, zero, front]
    simp [Passes.cutName]
  have fits : (utf8 text).length + 1 < 2 ^ 31 := by
    have octets := utf8_length_le text
    have size : maxPath = 260 := rfl
    omega
  have any : earlier ++ entry :: later ≠ [] := by simp
  have here := rank_holds earlier later entry rest (utf16 text) cut inhabited
  obtain ⟨target, _, pointed, _, _, read⟩ := Passes.filled_names wideCharToMultiByte _ _ _ here
  obtain ⟨listing, listed, status, table⟩ := list_streams_table _ _ _
    (Passes.list_passes_chain wideCharToMultiByte _ rest any ended)
  refine ⟨listing, target, listed, status, ?_, ?_, ?_⟩
  · rw [table]
    exact (List.getElem?_eq_some_iff.mp here).1
  · rw [table]
    exact pointed
  · rw [table]
    exact read name plain (encoded ▸ wide_text text fits)

theorem stream_name_inverse (name : CString) (some_ : name ≠ []) (plain : 0 ∉ name) :
    (∀ text, decodeUtf8 name = some text → (utf16 text).length ≤ maxPath - 2 →
      ∃ string, objectName name = .ok string ∧ Encodes string text ∧ ReadsBack string name) ∧
    (∀ text, decodeUtf8 name = some text → maxPath - 2 < (utf16 text).length → Refused name .ENAMETOOLONG) ∧
    (decodeUtf8 name = none → Refused name .EINVAL) := by
  refine ⟨fun text decoded short => ?_, fun text decoded long => ?_, fun invalid => ?_⟩
  · exact ⟨_, object_name_decoded name text decoded short, encodes_of text short,
      reads_back name text _ decoded some_ plain short (encoded_path text _ _ rfl)⟩
  · refine refused_of name _ (object_name_long name text decoded long) ?_
    rw [stream_name_decoded name text decoded, if_neg (by omega)]
  · exact refused_of name _ (object_name_invalid name invalid) (stream_name_invalid name invalid)

def accented : List Char := "æ😀".toList

theorem stream_name_inverse_accented :
    utf8 accented ≠ [] ∧ 0 ∉ utf8 accented ∧ ∃ string, objectName (utf8 accented) = .ok string ∧
      Encodes string accented ∧ ReadsBack string (utf8 accented) :=
  ⟨by decide, by decide, (stream_name_inverse (utf8 accented) (by decide) (by decide)).1 accented
    (decode_utf8 accented) (by decide)⟩

end FsExt.Attr.Windows
