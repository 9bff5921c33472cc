import FsExt.Uv
import FsExt.Sys.Memory
import FsExt.Sys.Text
import Mathlib.Logic.Function.Basic

set_option autoImplicit false

namespace FsExt.Binding

open Sys

abbrev JsString := List UInt16

-- A lone surrogate becomes U+FFFD.
def jsUtf8 (value : JsString) : List UInt8 := utf8 ((scalars value).map fun char => char.getD '\uFFFD')

-- `js_get_value_string_utf8` into a buffer: all bytes and a terminator if there
-- is room for both, else what fits.
structure Utf8Writer where
  write : List UInt8 → Nat → Block
  sized : ∀ octets size, (write octets size).length = size
  whole : ∀ octets size, octets.length < size →
    write octets size = bytes octets ++ .byte 0 :: blank (size - octets.length - 1)
  cut : ∀ octets size, size ≤ octets.length → ∃ part rest, part <+: octets ∧ write octets size = bytes part ++ rest

def pathSize : Nat := 4096 + 1

def nameBuffer (writer : Utf8Writer) (name : JsString) : Block :=
  writer.write (jsUtf8 name) ((jsUtf8 name).length + 1)

def pathBuffer (writer : Utf8Writer) (path : JsString) : Block := writer.write (jsUtf8 path) pathSize

def strdup (block : Block) : Option Block := (readString block).map fun string => bytes string ++ [.byte 0]

structure Platform (σ : Type) where
  getAttr : CString → σ → Except UvError (List UInt8) × σ
  setAttr : CString → List UInt8 → σ → Status × σ
  removeAttr : CString → σ → Status × σ
  swap : CString → CString → σ → Status × σ

section
variable {σ α : Type}

-- None: a string is read beyond its buffer. The asynchronous variants let the
-- worker read a copy.
def onName (writer : Utf8Writer) (act : CString → α) (name : JsString) : Option α :=
  (readString (nameBuffer writer name)).map act

def onQueuedName (writer : Utf8Writer) (act : CString → α) (name : JsString) : Option α := do
  let copy ← strdup (nameBuffer writer name)
  let string ← readString copy
  return act string

def getAttr (writer : Utf8Writer) (platform : Platform σ) (name : JsString) (world : σ) :
    Option (Except UvError (List UInt8) × σ) :=
  onQueuedName writer (platform.getAttr · world) name

def getAttrSync (writer : Utf8Writer) (platform : Platform σ) (name : JsString) (world : σ) :
    Option (Except UvError (List UInt8) × σ) :=
  onName writer (platform.getAttr · world) name

def setAttr (writer : Utf8Writer) (platform : Platform σ) (name : JsString) (value : List UInt8) (world : σ) :
    Option (Status × σ) :=
  onQueuedName writer (platform.setAttr · value world) name

def setAttrSync (writer : Utf8Writer) (platform : Platform σ) (name : JsString) (value : List UInt8) (world : σ) :
    Option (Status × σ) :=
  onName writer (platform.setAttr · value world) name

def removeAttr (writer : Utf8Writer) (platform : Platform σ) (name : JsString) (world : σ) : Option (Status × σ) :=
  onQueuedName writer (platform.removeAttr · world) name

def removeAttrSync (writer : Utf8Writer) (platform : Platform σ) (name : JsString) (world : σ) :
    Option (Status × σ) :=
  onName writer (platform.removeAttr · world) name

def swap (writer : Utf8Writer) (platform : Platform σ) (source target : JsString) (world : σ) :
    Option (Status × σ) := do
  let sourceCopy ← strdup (pathBuffer writer source)
  let targetCopy ← strdup (pathBuffer writer target)
  return platform.swap (← readString sourceCopy) (← readString targetCopy) world

def swapSync (writer : Utf8Writer) (platform : Platform σ) (source target : JsString) (world : σ) :
    Option (Status × σ) := do
  return platform.swap (← readString (pathBuffer writer source)) (← readString (pathBuffer writer target)) world

-- The platform function acts on the UTF-8 of the whole string, or the call
-- fails without an effect. A string with a lone surrogate has no UTF-8.
def Unaltered (result : Option (Except UvError α × σ)) (act : CString → Except UvError α × σ) (name : JsString)
    (world : σ) : Prop :=
  (∃ err, result = some (.error err, world)) ∨ ∃ text, utf16 text = name ∧ result = some (act (utf8 text))

end

structure NameUnaltered (writer : Utf8Writer) (name : JsString) : Prop where
  get : ∀ (σ : Type) (platform : Platform σ) (world : σ),
    Unaltered (getAttr writer platform name world) (platform.getAttr · world) name world
  getSync : ∀ (σ : Type) (platform : Platform σ) (world : σ),
    Unaltered (getAttrSync writer platform name world) (platform.getAttr · world) name world
  set : ∀ (σ : Type) (platform : Platform σ) (value : List UInt8) (world : σ),
    Unaltered (setAttr writer platform name value world) (platform.setAttr · value world) name world
  setSync : ∀ (σ : Type) (platform : Platform σ) (value : List UInt8) (world : σ),
    Unaltered (setAttrSync writer platform name value world) (platform.setAttr · value world) name world
  remove : ∀ (σ : Type) (platform : Platform σ) (world : σ),
    Unaltered (removeAttr writer platform name world) (platform.removeAttr · world) name world
  removeSync : ∀ (σ : Type) (platform : Platform σ) (world : σ),
    Unaltered (removeAttrSync writer platform name world) (platform.removeAttr · world) name world

def BothUnaltered {σ : Type} (result : Option (Status × σ)) (act : CString → CString → Status × σ)
    (source target : JsString) (world : σ) : Prop :=
  (∃ err, result = some (.error err, world)) ∨
    ∃ text text', utf16 text = source ∧ utf16 text' = target ∧ result = some (act (utf8 text) (utf8 text'))

structure PathsUnaltered (writer : Utf8Writer) (source target : JsString) : Prop where
  swap : ∀ (σ : Type) (platform : Platform σ) (world : σ),
    BothUnaltered (swap writer platform source target world) (platform.swap · · world) source target world
  swapSync : ∀ (σ : Type) (platform : Platform σ) (world : σ),
    BothUnaltered (swapSync writer platform source target world) (platform.swap · · world) source target world

def Passable (value : JsString) : Prop := ∃ text, utf16 text = value ∧ '\x00' ∉ text

def Fits (path : JsString) : Prop := (jsUtf8 path).length < pathSize

theorem js_utf8_text (text : List Char) : jsUtf8 (utf16 text) = utf8 text := by
  rw [jsUtf8, scalars_text]

theorem queued_name (writer : Utf8Writer) {α : Type} (act : CString → α) (name : JsString) :
    onQueuedName writer act name = onName writer act name := by
  rw [onQueuedName, onName, strdup]
  cases read : readString (nameBuffer writer name) with
  | none => rfl
  | some string =>
      have plain := (read_string_bounds _ _ read).1
      simp only [Option.map_some, Option.bind_eq_bind, Option.bind_some, read_string_name string [] plain]
      rfl

theorem queued_path (block : Block) : (strdup block).bind readString = readString block := by
  rw [strdup]
  cases read : readString block with
  | none => rfl
  | some string =>
      have plain := (read_string_bounds block string read).1
      simp only [Option.map_some, Option.bind_some, read_string_name string [] plain]

theorem written_text (writer : Utf8Writer) (text : List Char) (size : Nat) (plain : '\x00' ∉ text)
    (room : (utf8 text).length < size) : readString (writer.write (jsUtf8 (utf16 text)) size) = some (utf8 text) := by
  have octets : 0 ∉ utf8 text := fun inside => plain ((utf8_zero text).mp inside)
  rw [js_utf8_text, writer.whole (utf8 text) size room, read_string_name (utf8 text) _ octets]

theorem on_name_text (writer : Utf8Writer) {α : Type} (act : CString → α) (text : List Char) (plain : '\x00' ∉ text) :
    onName writer act (utf16 text) = some (act (utf8 text)) := by
  have room : (utf8 text).length < (jsUtf8 (utf16 text)).length + 1 := by
    rw [js_utf8_text]
    omega
  rw [onName, nameBuffer, written_text writer text _ plain room]
  rfl

theorem passable_unaltered (writer : Utf8Writer) (name : JsString) (passable : Passable name) :
    NameUnaltered writer name := by
  obtain ⟨text, rfl, plain⟩ := passable
  have sync : ∀ {σ α : Type} (act : CString → Except UvError α × σ) (world : σ),
      Unaltered (onName writer act (utf16 text)) act (utf16 text) world := fun act world =>
    .inr ⟨text, rfl, on_name_text writer act text plain⟩
  have queued : ∀ {σ α : Type} (act : CString → Except UvError α × σ) (world : σ),
      Unaltered (onQueuedName writer act (utf16 text)) act (utf16 text) world := fun act world => by
    rw [queued_name]
    exact sync act world
  exact ⟨fun _ _ world => queued _ world, fun _ _ world => sync _ world, fun _ _ _ world => queued _ world,
    fun _ _ _ world => sync _ world, fun _ _ world => queued _ world, fun _ _ world => sync _ world⟩

def recorder : Platform (List CString) where
  getAttr name _ := (.ok [], [name])
  setAttr name _ _ := (.ok (), [name])
  removeAttr name _ := (.ok (), [name])
  swap source target _ := (.ok (), [source, target])

theorem unaltered_passable (writer : Utf8Writer) (name : JsString) (unaltered : NameUnaltered writer name) :
    Passable name := by
  cases read : readString (nameBuffer writer name) with
  | none =>
      rcases unaltered.getSync _ recorder [] with ⟨err, failed⟩ | ⟨text, _, acted⟩
      · simp only [getAttrSync, onName, read, Option.map_none] at failed
        cases failed
      · simp only [getAttrSync, onName, read, Option.map_none] at acted
        cases acted
  | some string =>
      rcases unaltered.getSync _ recorder [] with ⟨err, failed⟩ | ⟨text, whole, acted⟩
      · simp only [getAttrSync, onName, read, Option.map_some, recorder] at failed
        cases failed
      · simp only [getAttrSync, onName, read, Option.map_some, recorder, Option.some.injEq, Prod.mk.injEq, true_and,
          List.cons.injEq, and_true] at acted
        refine ⟨text, whole, fun zero => ?_⟩
        rw [← utf8_zero, ← acted] at zero
        exact (read_string_bounds _ _ read).1 zero

theorem swap_reads (writer : Utf8Writer) {σ : Type} (platform : Platform σ) (source target : JsString) (world : σ) :
    swap writer platform source target world = swapSync writer platform source target world := by
  have first := queued_path (pathBuffer writer source)
  have second := queued_path (pathBuffer writer target)
  rw [swap, swapSync]
  rw [← first, ← second]
  cases strdup (pathBuffer writer source) <;> cases strdup (pathBuffer writer target) <;> simp

theorem passable_paths_unaltered (writer : Utf8Writer) (source target : JsString)
    (passable : Passable source ∧ Passable target) (fits : Fits source ∧ Fits target) :
    PathsUnaltered writer source target := by
  obtain ⟨⟨text, rfl, plain⟩, text', rfl, plain'⟩ := passable
  simp only [Fits, js_utf8_text] at fits
  have sync : ∀ (σ : Type) (platform : Platform σ) (world : σ),
      BothUnaltered (swapSync writer platform (utf16 text) (utf16 text') world) (platform.swap · · world) (utf16 text)
        (utf16 text') world := by
    intro σ platform world
    refine .inr ⟨text, text', rfl, rfl, ?_⟩
    simp only [swapSync, pathBuffer, written_text writer text pathSize plain fits.1,
      written_text writer text' pathSize plain' fits.2]
    rfl
  exact ⟨fun σ platform world => by
    rw [swap_reads]
    exact sync σ platform world, sync⟩

theorem unaltered_paths_passable (writer : Utf8Writer) (source target : JsString)
    (unaltered : PathsUnaltered writer source target) :
    (Passable source ∧ Passable target) ∧ Fits source ∧ Fits target := by
  have sync := unaltered.swapSync _ recorder []
  have part : ∀ path string text, readString (pathBuffer writer path) = some string → utf16 text = path →
      string = utf8 text → Passable path ∧ Fits path := by
    rintro path string text read rfl rfl
    obtain ⟨plain, shorter⟩ := read_string_bounds _ _ read
    rw [pathBuffer, writer.sized] at shorter
    exact ⟨⟨text, rfl, fun zero => plain ((utf8_zero text).mpr zero)⟩, by rwa [Fits, js_utf8_text]⟩
  rw [swapSync] at sync
  cases read : readString (pathBuffer writer source) with
  | none =>
      rw [read] at sync
      rcases sync with ⟨_, failed⟩ | ⟨_, _, _, _, acted⟩
      · cases failed
      · cases acted
  | some string =>
      cases read' : readString (pathBuffer writer target) with
      | none =>
          rw [read, read'] at sync
          rcases sync with ⟨_, failed⟩ | ⟨_, _, _, _, acted⟩
          · cases failed
          · cases acted
      | some string' =>
          rw [read, read'] at sync
          rcases sync with ⟨_, failed⟩ | ⟨text, text', whole, whole', acted⟩
          · cases failed
          · have same : [string, string'] = [utf8 text, utf8 text'] :=
              congrArg Prod.snd (Option.some.inj acted)
            obtain ⟨passable, fits⟩ := part source string text read whole (List.cons.inj same).1
            obtain ⟨passable', fits'⟩ := part target string' text' read' whole'
              (List.cons.inj (List.cons.inj same).2).1
            exact ⟨⟨passable, passable'⟩, fits, fits'⟩

def plainWrite (octets : List UInt8) (size : Nat) : Block :=
  if octets.length < size then bytes octets ++ .byte 0 :: blank (size - octets.length - 1)
  else bytes (octets.take size)

theorem plain_write_length (octets : List UInt8) (size : Nat) : (plainWrite octets size).length = size := by
  by_cases room : octets.length < size
  · rw [plainWrite, if_pos room]
    simp only [List.length_append, bytes_length, List.length_cons, blank, List.length_replicate]
    omega
  · rw [plainWrite, if_neg room]
    simp only [bytes_length, List.length_take]
    omega

theorem plain_write_cut (octets : List UInt8) (size : Nat) (full : size ≤ octets.length) :
    ∃ part rest, part <+: octets ∧ plainWrite octets size = bytes part ++ rest := by
  refine ⟨octets.take size, [], List.take_prefix size octets, ?_⟩
  rw [plainWrite, if_neg (Nat.not_lt.mpr full), List.append_nil]

def plainWriter : Utf8Writer where
  write := plainWrite
  sized := plain_write_length
  whole _ _ room := if_pos room
  cut := plain_write_cut

end FsExt.Binding
