import FsExt.Attr.StreamList

set_option autoImplicit false

namespace FsExt.Attr.Windows

open Sys

def named (streams : List StreamInformation) : List (List UInt16) :=
  (streams.map StreamInformation.name).filter (· ≠ [])

def bounds : (start : Nat) → List StreamInformation → List (Nat × Nat)
  | _, [] => []
  | start, stream :: rest => (start, start + stream.entrySize) :: bounds (start + stream.entrySize) rest

def Touch.Inside (touch : Touch) (entries : List (Nat × Nat)) : Prop :=
  ∃ stop, (touch.entry, stop) ∈ entries ∧ touch.entry ≤ touch.start ∧ touch.stop ≤ stop

-- The names come back as UTF-8 of what they are, and nothing but the entry at
-- hand is touched. Where there is no entry there is nothing to touch.
structure Exact (streams : List StreamInformation) (listing : Listing) (texts : List (List Char)) : Prop where
  status : listing.status = .ok ()
  listed : listing.table.listed = some (texts.map utf8)
  names : texts.map utf16 = named streams
  inside : ∀ touch ∈ listing.touches, touch.Inside (bounds 0 streams)

def ListsExactly (table : NameTable) (streams : List StreamInformation) : Prop :=
  ∃ listing texts, ((listAttrs table).run (streamQueries streams) ()).1 = some listing ∧ Exact streams listing texts

-- A name of one unit more than a multiple of four fills its entry to the end and
-- has no padding behind it.
structure Decodable (streams : List StreamInformation) : Prop where
  any : streams ≠ []
  ended : ∀ stream ∈ streams, stream.padding.head? = some 0
  text : ∀ stream ∈ streams, ∃ text, utf16 text = stream.name ∧ (utf8 text).length + 1 < 2 ^ 31
  room : (layout streams).length ≤ 2 ^ 31

namespace StreamInformation

def behind (stream : StreamInformation) : List UInt16 := stream.padding.takeWhile (· ≠ 0)

def cutName (stream : StreamInformation) : List UInt16 := stream.name ++ dataSuffix.take stream.behind.length

def cutEntry (stream : StreamInformation) (nextEntryOffset : Nat) : List UInt8 :=
  stream.header nextEntryOffset ++ wideOctets (colon :: stream.cutName) ++
    (0 :: 0 :: (wideOctets (dataSuffix.drop (stream.behind.length + 1)) ++ wideOctets stream.padding))

section
variable (stream : StreamInformation) (nextEntryOffset : Nat)

@[simp] theorem header_length : (stream.header nextEntryOffset).length = nameOffset := by
  simp [header, nameOffset]

theorem suffix_length : dataSuffix.length = 6 := rfl

theorem stream_name_length : stream.streamName.length = stream.name.length + 7 := by
  simp [streamName, suffix_length]

theorem entry_size_eq : stream.entrySize = (2 * stream.name.length + 45) / 8 * 8 := by
  simp only [entrySize, Windows.streamSize, alignUp, nameOffset, List.length_append, List.length_cons, suffix_length]
  congr 2
  omega

theorem padding_length : 2 * stream.name.length + 38 + 2 * stream.padding.length = stream.entrySize := by
  have aligned := stream.aligned
  simp only [Windows.streamSize, nameOffset, List.length_append, List.length_cons, suffix_length] at aligned
  rw [entrySize, Windows.streamSize, nameOffset, List.length_append, List.length_cons, suffix_length, ← aligned]
  omega

theorem behind_le : stream.behind.length ≤ stream.padding.length := (List.takeWhile_sublist _).length_le

theorem behind_short : stream.behind.length ≤ 3 := by
  have size := stream.entry_size_eq
  have padded := stream.padding_length
  have short := stream.behind_le
  omega

theorem cut_name_length : stream.cutName.length = stream.name.length + stream.behind.length := by
  have short := stream.behind_short
  rw [cutName, List.length_append, List.length_take, suffix_length]
  omega

@[simp] theorem entry_length : (stream.entry nextEntryOffset).length = stream.entrySize := by
  have padded := stream.padding_length
  simp only [entry, List.length_append, header_length, wide_octets_length, stream_name_length, nameOffset]
  omega

@[simp] theorem cut_entry_length : (stream.cutEntry nextEntryOffset).length = stream.entrySize := by
  have padded := stream.padding_length
  have short := stream.behind_short
  simp only [cutEntry, List.length_append, header_length, wide_octets_length, nameOffset, List.length_cons,
    List.length_drop, cut_name_length, suffix_length]
  omega

theorem plain_name : 0 ∉ stream.name ++ dataSuffix := by
  rw [List.mem_append, not_or]
  exact ⟨stream.plain, by decide⟩

theorem plain_cut : 0 ∉ stream.cutName := by
  rw [cutName, List.mem_append, not_or]
  exact ⟨stream.plain, fun inside => absurd (List.mem_of_mem_take inside) (by decide)⟩

theorem behind_plain : 0 ∉ stream.behind := fun inside => by
  simpa using List.mem_takeWhile_imp inside

theorem padding_split (ended : 0 ∈ stream.padding) : ∃ rest, stream.padding = stream.behind ++ 0 :: rest := by
  have whole := List.takeWhile_append_dropWhile (p := (· ≠ (0 : UInt16))) (l := stream.padding)
  cases left : stream.padding.dropWhile (· ≠ (0 : UInt16)) with
  | nil =>
      rw [left, List.append_nil] at whole
      have plain := stream.behind_plain
      rw [behind, whole] at plain
      exact absurd ended plain
  | cons unit rest =>
      have stops := List.head?_dropWhile_not (· ≠ (0 : UInt16)) stream.padding
      rw [left] at stops
      obtain rfl : unit = 0 := by simpa using stops
      exact ⟨rest, by rw [behind, ← left, whole]⟩

theorem behind_less (ended : 0 ∈ stream.padding) : stream.behind.length < stream.padding.length := by
  obtain ⟨rest, split⟩ := stream.padding_split ended
  have lengths := congrArg List.length split
  rw [List.length_append, List.length_cons] at lengths
  omega

theorem behind_none (ended : stream.padding.head? = some 0) : stream.behind = [] := by
  obtain ⟨rest, split⟩ := List.head?_eq_some_iff.mp ended
  rw [behind, split]
  rfl

theorem cut_name_whole (ended : stream.padding.head? = some 0) : stream.cutName = stream.name := by
  rw [cutName, stream.behind_none ended]
  exact List.append_nil _

theorem entry_drop (front rest : List UInt8) :
    (front ++ (stream.entry nextEntryOffset ++ rest)).drop (front.length + nameOffset + 2) =
      wideOctets (stream.name ++ dataSuffix ++ stream.padding) ++ rest := by
  have shape : front ++ (stream.entry nextEntryOffset ++ rest) =
      (front ++ stream.header nextEntryOffset ++ wideOctets [colon]) ++
        (wideOctets (stream.name ++ dataSuffix ++ stream.padding) ++ rest) := by
    simp [entry, streamName, wideOctets]
  rw [shape, List.drop_left' (by simp; omega)]

theorem cut_entry_drop (front rest : List UInt8) :
    ∃ more, (front ++ (stream.cutEntry nextEntryOffset ++ rest)).drop (front.length + nameOffset + 2) =
      wideOctets stream.cutName ++ (0 :: 0 :: more) := by
  have shape : front ++ (stream.cutEntry nextEntryOffset ++ rest) =
      (front ++ stream.header nextEntryOffset ++ wideOctets [colon]) ++ (wideOctets stream.cutName ++
        (0 :: 0 :: (wideOctets (dataSuffix.drop (stream.behind.length + 1)) ++ wideOctets stream.padding ++ rest))) := by
    simp [cutEntry, wideOctets]
  exact ⟨_, by rw [shape, List.drop_left' (by simp; omega)]⟩

theorem store_cut (front rest : List UInt8) :
    store (front ++ (stream.entry nextEntryOffset ++ rest))
        (front.length + nameOffset + 2 + 2 * (stream.name.length + stream.behind.length)) [0, 0] =
      front ++ (stream.cutEntry nextEntryOffset ++ rest) := by
  have short := stream.behind_short
  have less : stream.behind.length < dataSuffix.length := by
    rw [suffix_length]
    omega
  have suffix : dataSuffix = dataSuffix.take stream.behind.length ++
      (dataSuffix[stream.behind.length] :: dataSuffix.drop (stream.behind.length + 1)) := by
    rw [← List.drop_eq_getElem_cons less, List.take_append_drop]
  generalize dataSuffix[stream.behind.length] = unit at suffix
  have named : stream.streamName = colon :: stream.cutName ++ (unit :: dataSuffix.drop (stream.behind.length + 1)) := by
    rw [streamName, cutName, List.cons_append, List.cons_append, List.append_assoc, ← suffix]
  have shape : front ++ (stream.entry nextEntryOffset ++ rest) =
      (front ++ stream.header nextEntryOffset ++ wideOctets (colon :: stream.cutName)) ++ (wideOctets [unit] ++
        (wideOctets (dataSuffix.drop (stream.behind.length + 1)) ++ wideOctets stream.padding ++ rest)) := by
    rw [entry, named]
    simp [wideOctets]
  have at_ : (front ++ stream.header nextEntryOffset ++ wideOctets (colon :: stream.cutName)).length =
      front.length + nameOffset + 2 + 2 * (stream.name.length + stream.behind.length) := by
    simp only [List.length_append, header_length, wide_octets_length, List.length_cons, cut_name_length]
    omega
  rw [shape, ← at_, store_between _ (wideOctets [unit]) _ [0, 0] (by rw [wide_octets_length]; rfl)]
  simp [cutEntry]

theorem read_cut_name (front rest : List UInt8) :
    readWide ((front ++ (stream.cutEntry nextEntryOffset ++ rest)).drop (front.length + nameOffset + 2)) =
      some stream.cutName := by
  obtain ⟨more, dropped⟩ := stream.cut_entry_drop nextEntryOffset front rest
  rw [dropped, read_wide_string stream.cutName _ stream.plain_cut]

theorem read_next_offset (front rest : List UInt8) (small : nextEntryOffset < 2 ^ 32) :
    readWord 4 front.length (front ++ (stream.cutEntry nextEntryOffset ++ rest)) = some nextEntryOffset := by
  simp only [cutEntry, header, List.append_assoc]
  exact read_word 4 nextEntryOffset front _ (by omega)

end

theorem count_turn (stream : StreamInformation) (offset turns : Nat) (front rest : List UInt8)
    (ended : 0 ∈ stream.padding) (small : offset < 2 ^ 32) :
    countStreams (turns + 1) (front ++ (stream.entry offset ++ rest)) front.length =
      (if offset = 0 then some ⟨front ++ (stream.cutEntry offset ++ rest), 0, 0, []⟩
        else countStreams turns (front ++ (stream.cutEntry offset ++ rest)) (front.length + offset)).map
        fun counted => counted.count stream.cutName
          (cutTouches front.length (stream.cutName.length + 6)
              (front.length + nameOffset + 2 + 2 * stream.cutName.length) ++
            readTouches front.length stream.cutName) := by
  obtain ⟨more, padding⟩ := stream.padding_split ended
  have whole : readWide ((front ++ (stream.entry offset ++ rest)).drop (front.length + nameOffset + 2)) =
      some (stream.name ++ dataSuffix ++ stream.behind) := by
    have plain : 0 ∉ stream.name ++ dataSuffix ++ stream.behind := by
      rw [List.mem_append, not_or]
      exact ⟨stream.plain_name, stream.behind_plain⟩
    have read := read_wide_string _ (wideOctets more ++ rest) plain
    rw [entry_drop, padding]
    simpa [wideOctets, octets] using read
  have last : front.length + nameOffset + 2 + 2 * (stream.name.length + stream.behind.length + 6) - 2 * 6 =
      front.length + nameOffset + 2 + 2 * (stream.name.length + stream.behind.length) := by
    omega
  have count : stream.name.length + 6 + stream.behind.length = stream.name.length + stream.behind.length + 6 := by
    omega
  simp only [countStreams, Option.bind_eq_bind, whole, Option.bind_some, List.length_append, suffix_length, count, last,
    store_cut, read_cut_name, read_next_offset stream offset front rest small, cut_name_length]
  split
  · rfl
  · cases countStreams turns (front ++ (stream.cutEntry offset ++ rest)) (front.length + offset) with
    | none => rfl
    | some counted => rfl

end StreamInformation

def cutLayout : List StreamInformation → List UInt8
  | [] => []
  | stream :: rest => stream.cutEntry (if rest.isEmpty then 0 else stream.entrySize) ++ cutLayout rest

def converted (names : List (List UInt16)) : List UInt8 := names.flatMap wideCharToMultiByte

@[simp] theorem layout_cons (stream : StreamInformation) (rest : List StreamInformation) :
    (layout (stream :: rest)).length = stream.entrySize + (layout rest).length := by
  rw [layout, List.length_append, StreamInformation.entry_length]

theorem cut_layout_length (streams : List StreamInformation) : (cutLayout streams).length = (layout streams).length := by
  induction streams with
  | nil => rfl
  | cons stream rest ih =>
      rw [cutLayout, List.length_append, StreamInformation.cut_entry_length, layout_cons, ih]

def found (streams : List StreamInformation) : List (List UInt16) :=
  (streams.map StreamInformation.cutName).filter (· ≠ [])

theorem found_cons_unnamed (stream : StreamInformation) (rest : List StreamInformation) (unnamed : stream.cutName = []) :
    found (stream :: rest) = found rest := by
  simp [found, unnamed]

theorem found_cons (stream : StreamInformation) (rest : List StreamInformation) (some_ : stream.cutName ≠ []) :
    found (stream :: rest) = stream.cutName :: found rest := by
  simp [found, some_]

theorem found_named (streams : List StreamInformation) (ended : ∀ stream ∈ streams, stream.padding.head? = some 0) :
    found streams = named streams := by
  have same : streams.map StreamInformation.cutName = streams.map StreamInformation.name :=
    List.map_congr_left fun stream member => stream.cut_name_whole (ended stream member)
  rw [found, same, named]

theorem read_touches_inside (start stop : Nat) (name : List UInt16) (entries : List (Nat × Nat))
    (entry : (start, stop) ∈ entries) (room : start + 28 + 2 * name.length ≤ stop) :
    ∀ touch ∈ readTouches start name, touch.Inside entries := by
  intro touch member
  have entry_ : touch.entry = start ∧ start ≤ touch.start ∧ touch.stop ≤ stop := by
    simp only [readTouches, List.mem_append, List.mem_cons, List.not_mem_nil, or_false] at member
    rcases member with (rfl | converts) | rfl
    · exact ⟨rfl, by simp only; omega, by simp only [nameOffset]; omega⟩
    · split at converts
      · cases converts
      · obtain rfl := List.mem_singleton.mp converts
        exact ⟨rfl, by simp only; omega, by simp only [nameOffset]; omega⟩
    · exact ⟨rfl, Nat.le_refl _, by simp only; omega⟩
  exact ⟨stop, entry_.1 ▸ entry, entry_.1 ▸ entry_.2.1, entry_.2.2⟩

theorem cut_touches_inside (start stop length count : Nat) (entries : List (Nat × Nat))
    (entry : (start, stop) ∈ entries) (room : start + 28 + 2 * length ≤ stop) (shorter : count ≤ length) :
    ∀ touch ∈ cutTouches start length (start + nameOffset + 2 + 2 * count), touch.Inside entries := by
  intro touch member
  simp only [cutTouches, List.mem_cons, List.not_mem_nil, or_false] at member
  rcases member with rfl | rfl
  · exact ⟨stop, entry, by simp only; omega, by simp only [nameOffset]; omega⟩
  · exact ⟨stop, entry, by simp only; omega, by simp only [nameOffset]; omega⟩

def namesLen (names : List (List UInt16)) : Nat := names.length * pointerSize + (converted names).length

theorem inside_later (touch : Touch) (start : Nat) (stream : StreamInformation) (rest : List StreamInformation)
    (inside : touch.Inside (bounds (start + stream.entrySize) rest)) : touch.Inside (bounds start (stream :: rest)) := by
  obtain ⟨stop, member, within⟩ := inside
  exact ⟨stop, .tail _ member, within⟩

theorem counted_found (stream : StreamInformation) (rest : List StreamInformation) (info : List UInt8)
    (touches later : List Touch) :
    Counted.count ⟨info, (found rest).length, namesLen (found rest), later⟩ stream.cutName touches =
      ⟨info, (found (stream :: rest)).length, namesLen (found (stream :: rest)), touches ++ later⟩ := by
  by_cases unnamed : stream.cutName = []
  · rw [Counted.count, if_pos unnamed, found_cons_unnamed stream rest unnamed]
  · rw [Counted.count, if_neg unnamed, found_cons stream rest unnamed]
    simp only [namesLen, converted, List.flatMap_cons, List.length_append, List.length_cons, Nat.succ_mul,
      Counted.mk.injEq, true_and, and_true]
    omega

theorem StreamInformation.turn_inside (stream : StreamInformation) (start : Nat) (rest : List StreamInformation)
    (ended : 0 ∈ stream.padding) :
    (∀ touch ∈ cutTouches start (stream.cutName.length + 6) (start + nameOffset + 2 + 2 * stream.cutName.length),
        touch.Inside (bounds start (stream :: rest))) ∧
      ∀ touch ∈ readTouches start stream.cutName, touch.Inside (bounds start (stream :: rest)) := by
  have padded := stream.padding_length
  have count := stream.cut_name_length
  have less := stream.behind_less ended
  have entry : (start, start + stream.entrySize) ∈ bounds start (stream :: rest) := .head _
  exact ⟨cut_touches_inside start _ _ _ _ entry (by omega) (by omega),
    read_touches_inside start _ _ _ entry (by omega)⟩

theorem count_streams (streams : List StreamInformation) (turns : Nat) (front rest : List UInt8)
    (any : streams ≠ []) (enough : streams.length ≤ turns)
    (ended : ∀ stream ∈ streams, 0 ∈ stream.padding) (room : (layout streams).length < 2 ^ 32) :
    ∃ touches, countStreams turns (front ++ (layout streams ++ rest)) front.length =
        some ⟨front ++ (cutLayout streams ++ rest), (found streams).length, namesLen (found streams), touches⟩ ∧
      ∀ touch ∈ touches, touch.Inside (bounds front.length streams) := by
  induction streams generalizing turns front with
  | nil => exact absurd rfl any
  | cons stream streams ih =>
      obtain ⟨turns, rfl⟩ : ∃ less, turns = less + 1 := ⟨turns - 1, by simp only [List.length_cons] at enough; omega⟩
      have ends := ended stream (.head _)
      obtain ⟨cuts, reads⟩ := stream.turn_inside front.length streams ends
      cases streams with
      | nil =>
          have turn := stream.count_turn 0 turns front rest ends (by decide)
          rw [if_pos rfl, Option.map_some] at turn
          refine ⟨_, ?_, List.forall_mem_append.mpr ⟨cuts, reads⟩⟩
          have counted := counted_found stream [] (front ++ (stream.cutEntry 0 ++ rest))
            (cutTouches front.length (stream.cutName.length + 6)
              (front.length + nameOffset + 2 + 2 * stream.cutName.length) ++ readTouches front.length stream.cutName) []
          rw [List.append_nil] at counted
          simp only [layout, cutLayout, List.isEmpty_nil, if_true, List.append_nil]
          rw [turn, ← counted]
          rfl
      | cons next streams =>
          have size := stream.entry_size_eq
          rw [layout_cons] at room
          have turn := stream.count_turn stream.entrySize turns front (layout (next :: streams) ++ rest) ends (by omega)
          have onward : (front ++ stream.cutEntry stream.entrySize).length = front.length + stream.entrySize := by simp
          obtain ⟨touches, later, inside⟩ := ih turns (front ++ stream.cutEntry stream.entrySize) (by simp)
            (by simpa using enough) (fun other member => ended other (.tail _ member)) (by omega)
          rw [onward] at later inside
          simp only [List.append_assoc] at later
          rw [if_neg (by omega), later, Option.map_some, counted_found] at turn
          refine ⟨_, ?_, List.forall_mem_append.mpr ⟨List.forall_mem_append.mpr ⟨cuts, reads⟩, fun touch member =>
            inside_later touch front.length stream _ (inside touch member)⟩⟩
          rw [layout, cutLayout]
          simpa only [List.isEmpty_cons, Bool.false_eq_true, if_false, List.append_assoc] using turn

theorem count_touches (counted : Counted) (name : List UInt16) (touches : List Touch) :
    (counted.count name touches).touches = touches ++ counted.touches := by
  rw [Counted.count]
  split
  · rfl
  · rfl

theorem count_streams_first (turns next : Nat) (info : List UInt8) (counted : Counted)
    (ran : countStreams turns info next = some counted) :
    ∃ whole, readWide (info.drop (next + nameOffset + 2)) = some whole ∧
      ⟨next, next + nameOffset + 2, next + nameOffset + 2 + 2 * (whole.length + 1)⟩ ∈ counted.touches := by
  cases turns with
  | zero => cases ran
  | succ turns =>
      simp only [countStreams, Option.bind_eq_bind, Option.bind_eq_some_iff] at ran
      obtain ⟨whole, read, name, _, offset, _, made⟩ := ran
      refine ⟨whole, read, ?_⟩
      split at made
      · obtain rfl := Option.some.inj made
        rw [count_touches]
        exact .head _
      · obtain ⟨later, _, made⟩ := Option.bind_eq_some_iff.mp made
        obtain rfl := Option.some.inj made
        rw [count_touches]
        exact .head _

theorem count_streams_beyond (streams : List StreamInformation) (turns : Nat) (front rest : List UInt8)
    (counted : Counted) (filled : ∃ stream ∈ streams, 0 ∉ stream.padding)
    (room : (layout streams).length < 2 ^ 32)
    (ran : countStreams turns (front ++ (layout streams ++ rest)) front.length = some counted) :
    ∃ touch ∈ counted.touches, ∃ stop, (touch.entry, stop) ∈ bounds front.length streams ∧ stop < touch.stop := by
  induction streams generalizing turns front counted with
  | nil =>
      obtain ⟨_, member, _⟩ := filled
      cases member
  | cons stream streams ih =>
      have size := stream.entry_size_eq
      rw [layout_cons] at room
      rw [layout, List.append_assoc] at ran
      by_cases here : 0 ∉ stream.padding
      · obtain ⟨whole, read, member⟩ := count_streams_first _ _ _ _ ran
        have plain : 0 ∉ stream.name ++ dataSuffix ++ stream.padding := by
          rw [List.mem_append, not_or]
          exact ⟨stream.plain_name, here⟩
        rw [stream.entry_drop, read_wide_units _ _ plain] at read
        obtain ⟨more, _, rfl⟩ := Option.map_eq_some_iff.mp read
        have padded := stream.padding_length
        refine ⟨_, member, front.length + stream.entrySize, .head _, ?_⟩
        simp only [List.length_append, StreamInformation.suffix_length, nameOffset]
        omega
      · obtain ⟨other, member, long⟩ := filled
        have later : other ∈ streams := by
          rcases List.mem_cons.mp member with rfl | later
          · exact absurd long here
          · exact later
        cases streams with
        | nil => cases later
        | cons next streams =>
            cases turns with
            | zero => cases ran
            | succ turns =>
                have turn := stream.count_turn stream.entrySize turns front (layout (next :: streams) ++ rest)
                  (not_not.mp here) (by omega)
                have onward : (front ++ stream.cutEntry stream.entrySize).length = front.length + stream.entrySize := by
                  simp
                rw [List.isEmpty_cons, if_neg (by decide), turn, if_neg (by omega)] at ran
                obtain ⟨counted, tail, rfl⟩ := Option.map_eq_some_iff.mp ran
                have found := ih turns (front ++ stream.cutEntry stream.entrySize) counted ⟨other, later, long⟩
                  (by omega) (by rw [onward, List.append_assoc]; exact tail)
                obtain ⟨touch, inside, stop, entry, beyond⟩ := found
                rw [onward] at entry
                exact ⟨touch, by rw [count_touches]; exact List.mem_append_right _ inside, stop, .tail _ entry, beyond⟩

theorem bounds_after (streams : List StreamInformation) (start entry stop : Nat)
    (member : (entry, stop) ∈ bounds start streams) : start ≤ entry := by
  induction streams generalizing start with
  | nil => cases member
  | cons stream streams ih =>
      rcases List.mem_cons.mp member with same | later
      · cases same
        exact Nat.le_refl _
      · have := ih _ later
        omega

theorem bounds_unique (streams : List StreamInformation) (start entry stop stop' : Nat)
    (member : (entry, stop) ∈ bounds start streams) (member' : (entry, stop') ∈ bounds start streams) :
    stop = stop' := by
  induction streams generalizing start with
  | nil => cases member
  | cons stream streams ih =>
      have size := stream.entry_size_eq
      rcases List.mem_cons.mp member with same | later
      · rcases List.mem_cons.mp member' with same' | later'
        · cases same
          cases same'
          rfl
        · cases same
          have := bounds_after _ _ _ _ later'
          omega
      · rcases List.mem_cons.mp member' with same' | later'
        · cases same'
          have := bounds_after _ _ _ _ later
          omega
        · exact ih _ later later'

def targets : (base : Nat) → List (List UInt16) → List Nat
  | _, [] => []
  | base, name :: names => base :: targets (base + (wideCharToMultiByte name).length) names

theorem place_inside (front gap rest cells : Block) (fits : cells.length ≤ gap.length) :
    place (front ++ gap ++ rest) front.length cells = some (front ++ cells ++ gap.drop cells.length ++ rest) := by
  rw [place, if_pos (by simp only [List.length_append]; omega), overwrite_inside front gap rest cells fits]

section
variable (stream : StreamInformation) (offset turns : Nat) (front rest : List UInt8) (table gap copied spare : Block)

theorem copy_unnamed (i j base : Nat) (names : Block) (small : offset < 2 ^ 32) (unnamed : stream.cutName = []) :
    copyStreams (front ++ (stream.cutEntry offset ++ rest)) base (turns + 1) names front.length i j =
      (if offset = 0 then some (names, [])
        else copyStreams (front ++ (stream.cutEntry offset ++ rest)) base turns names (front.length + offset) i j).map
        fun later => (later.1, readTouches front.length stream.cutName ++ later.2) := by
  simp only [copyStreams, Option.bind_eq_bind, stream.read_cut_name, Option.bind_some,
    stream.read_next_offset offset front rest small, if_pos unnamed]
  split
  · rfl
  · exact Option.map_eq_bind.symm

theorem copy_named (base : Nat) (small : offset < 2 ^ 32) (some_ : stream.cutName ≠ [])
    (placed : base = table.length + gap.length) (room : pointerSize ≤ gap.length)
    (fits : (wideCharToMultiByte stream.cutName).length ≤ spare.length) :
    copyStreams (front ++ (stream.cutEntry offset ++ rest)) base (turns + 1) (table ++ gap ++ (copied ++ spare))
        front.length copied.length table.length =
      (if offset = 0 then
        some (table ++ pointerCells (base + copied.length) ++ gap.drop pointerSize ++
          (copied ++ bytes (wideCharToMultiByte stream.cutName) ++
            spare.drop (wideCharToMultiByte stream.cutName).length), [])
        else copyStreams (front ++ (stream.cutEntry offset ++ rest)) base turns
          (table ++ pointerCells (base + copied.length) ++ gap.drop pointerSize ++
            (copied ++ bytes (wideCharToMultiByte stream.cutName) ++
              spare.drop (wideCharToMultiByte stream.cutName).length))
          (front.length + offset) (copied.length + (wideCharToMultiByte stream.cutName).length)
          (table.length + pointerSize)).map
        fun later => (later.1, readTouches front.length stream.cutName ++ later.2) := by
  have copy : place (table ++ gap ++ (copied ++ spare)) (base + copied.length)
      (bytes (wideCharToMultiByte stream.cutName)) = some (table ++ gap ++ (copied ++
        bytes (wideCharToMultiByte stream.cutName) ++ spare.drop (wideCharToMultiByte stream.cutName).length)) := by
    have put := place_inside (table ++ gap ++ copied) spare [] (bytes (wideCharToMultiByte stream.cutName))
      (by rw [bytes_length]; exact fits)
    rw [placed]
    simpa only [List.append_nil, List.append_assoc, List.length_append, Nat.add_assoc, bytes_length] using put
  have point := place_inside table gap (copied ++ bytes (wideCharToMultiByte stream.cutName) ++
    spare.drop (wideCharToMultiByte stream.cutName).length) (pointerCells (base + copied.length))
    (by rw [pointer_cells_length]; exact room)
  rw [pointer_cells_length] at point
  simp only [copyStreams, Option.bind_eq_bind, stream.read_cut_name, Option.bind_some,
    stream.read_next_offset offset front rest small, if_neg some_, copy, point]
  split
  · rfl
  · exact Option.map_eq_bind.symm

end

theorem copy_streams (streams : List StreamInformation) (base turns : Nat) (front rest : List UInt8)
    (table gap copied spare : Block) (enough : streams.length ≤ turns) (room : (layout streams).length < 2 ^ 32)
    (placed : base = table.length + gap.length) (pointers : gap.length = (found streams).length * pointerSize)
    (names : spare.length = (converted (found streams)).length) :
    ∃ touches,
      (if streams.isEmpty then some (table ++ gap ++ (copied ++ spare), [])
        else copyStreams (front ++ (cutLayout streams ++ rest)) base turns (table ++ gap ++ (copied ++ spare))
          front.length copied.length table.length) =
        some (table ++ (targets (base + copied.length) (found streams)).flatMap pointerCells ++
          (copied ++ bytes (converted (found streams))), touches) ∧
      ∀ touch ∈ touches, touch.Inside (bounds front.length streams) := by
  induction streams generalizing turns front table gap copied spare with
  | nil =>
      obtain rfl : gap = [] := List.length_eq_zero_iff.mp (by simpa [found] using pointers)
      obtain rfl : spare = [] := List.length_eq_zero_iff.mp (by simpa [found, converted] using names)
      refine ⟨[], ?_, fun touch member => nomatch member⟩
      simp [found, converted, targets, bytes]
  | cons stream streams ih =>
      obtain ⟨turns, rfl⟩ : ∃ less, turns = less + 1 := ⟨turns - 1, by simp only [List.length_cons] at enough; omega⟩
      have size := stream.entry_size_eq
      have padded := stream.padding_length
      have count := stream.cut_name_length
      have less := stream.behind_le
      rw [layout_cons] at room
      have reads := read_touches_inside front.length (front.length + stream.entrySize) stream.cutName
        (bounds front.length (stream :: streams)) (.head _) (by omega)
      generalize chosen : (if streams.isEmpty then 0 else stream.entrySize) = offset
      have small : offset < 2 ^ 32 := by
        split at chosen
        · omega
        · omega
      have onward : ∀ (names : Block) (i j : Nat),
          (if offset = 0 then some (names, []) else
            copyStreams (front ++ (stream.cutEntry offset ++ (cutLayout streams ++ rest))) base turns names
              (front.length + offset) i j) =
          if streams.isEmpty then some (names, []) else
            copyStreams (front ++ stream.cutEntry offset ++ (cutLayout streams ++ rest)) base turns names
              (front ++ stream.cutEntry offset).length i j := by
        intro names i j
        split at chosen
        · rename_i last
          rw [if_pos chosen.symm, if_pos last]
        · rename_i more
          rw [if_neg (by omega), if_neg more, List.length_append, StreamInformation.cut_entry_length, chosen,
            List.append_assoc]
      have start : (front ++ stream.cutEntry offset).length = front.length + stream.entrySize := by simp
      simp only [List.isEmpty_cons, Bool.false_eq_true, if_false, cutLayout, chosen, List.append_assoc _ _ rest]
      by_cases unnamed : stream.cutName = []
      · rw [found_cons_unnamed stream streams unnamed] at pointers names ⊢
        obtain ⟨touches, later, inside⟩ := ih turns (front ++ stream.cutEntry offset) table gap copied spare
          (by simpa using enough) (by omega) placed pointers names
        rw [copy_unnamed stream offset turns front _ _ _ base _ small unnamed, onward, later]
        exact ⟨_, rfl, List.forall_mem_append.mpr ⟨reads, fun touch member =>
          inside_later touch front.length stream streams (start ▸ inside touch member)⟩⟩
      · rw [found_cons stream streams unnamed] at pointers names ⊢
        rw [List.length_cons, Nat.succ_mul] at pointers
        simp only [converted, List.flatMap_cons, List.length_append] at names
        obtain ⟨touches, later, inside⟩ := ih turns (front ++ stream.cutEntry offset)
          (table ++ pointerCells (base + copied.length)) (gap.drop pointerSize)
          (copied ++ bytes (wideCharToMultiByte stream.cutName)) (spare.drop (wideCharToMultiByte stream.cutName).length)
          (by simpa using enough) (by omega) (by simp; omega) (by simp; omega) (by rw [List.length_drop, converted]; omega)
        simp only [List.length_append, pointer_cells_length, bytes_length] at later
        rw [copy_named stream offset turns front _ table gap copied spare base small unnamed placed (by omega) (by omega),
          onward, List.length_append, later]
        refine ⟨_, ?_, List.forall_mem_append.mpr ⟨reads, fun touch member =>
          inside_later touch front.length stream streams (start ▸ inside touch member)⟩⟩
        simp [targets, converted, bytes, Nat.add_assoc]

theorem layout_ge (streams : List StreamInformation) : streams.length ≤ (layout streams).length := by
  induction streams with
  | nil => exact Nat.le_refl 0
  | cons stream streams ih =>
      have size := stream.entry_size_eq
      rw [layout_cons, List.length_cons]
      omega

def namesBlock (names : List (List UInt16)) : Block :=
  (targets (names.length * pointerSize) names).flatMap pointerCells ++ bytes (converted names)

theorem list_streams (streams : List StreamInformation) (more : List UInt8) (any : streams ≠ [])
    (ended : ∀ stream ∈ streams, 0 ∈ stream.padding) (room : (layout streams).length < 2 ^ 32) :
    ∃ touches, listStreams (layout streams ++ more) =
        some ⟨.ok (), ⟨some (namesBlock (found streams)), (found streams).length⟩, touches⟩ ∧
      ∀ touch ∈ touches, touch.Inside (bounds 0 streams) := by
  have enough : streams.length ≤ (layout streams ++ more).length := by
    have entries := layout_ge streams
    rw [List.length_append]
    omega
  obtain ⟨first, counted, inside⟩ := count_streams streams (layout streams ++ more).length [] more any enough ended room
  have kept : (cutLayout streams ++ more).length = (layout streams ++ more).length := by
    rw [List.length_append, List.length_append, cut_layout_length]
  obtain ⟨second, copied, inside'⟩ := copy_streams streams ((found streams).length * pointerSize)
    (layout streams ++ more).length [] more [] (blank ((found streams).length * pointerSize)) []
    (blank (converted (found streams)).length) enough room (by simp [blank]) (by simp [blank]) (by simp [blank])
  have split : blank (namesLen (found streams)) =
      blank ((found streams).length * pointerSize) ++ blank (converted (found streams)).length :=
    List.replicate_add ..
  rw [if_neg (by simpa using any)] at copied
  simp only [List.nil_append, List.length_nil, Nat.add_zero] at counted copied inside inside'
  refine ⟨first ++ second, ?_, List.forall_mem_append.mpr ⟨inside, inside'⟩⟩
  simp only [listStreams, counted, Option.bind_eq_bind, Option.bind_some, split, kept, copied]
  rfl

def strings : List (List UInt16) → List (Option (List UInt8))
  | [] => []
  | name :: names => readString (bytes (converted (name :: names))) :: strings names

theorem targets_strings (block : Block) (names : List (List UInt16)) (base : Nat)
    (placed : block.drop base = bytes (converted names)) :
    (targets base names).map (fun target => readString (block.drop target)) = strings names := by
  induction names generalizing base with
  | nil => rfl
  | cons name names ih =>
      have later : block.drop (base + (wideCharToMultiByte name).length) = bytes (converted names) := by
        rw [← List.drop_drop, placed]
        simp [converted, bytes, List.drop_left']
      rw [targets, List.map_cons, strings, placed, ih _ later]

theorem targets_length (base : Nat) (names : List (List UInt16)) : (targets base names).length = names.length := by
  induction names generalizing base with
  | nil => rfl
  | cons name names ih => rw [targets, List.length_cons, ih, List.length_cons]

theorem listed_iff (names : List (List UInt16)) (found : List (List UInt8)) :
    NameTable.listed ⟨some (namesBlock names), names.length⟩ = some found ↔ strings names = found.map some := by
  have table : (namesBlock names).drop 0 =
      (targets (names.length * pointerSize) names).flatMap pointerCells ++ bytes (converted names) := rfl
  have count := targets_length (names.length * pointerSize) names
  have pointers : ((targets (names.length * pointerSize) names).flatMap pointerCells).length =
      names.length * pointerSize := by
    rw [List.length_flatMap]
    simp [count]
  have placed : (namesBlock names).drop (names.length * pointerSize) = bytes (converted names) :=
    List.drop_left' pointers
  have read := targets_strings (namesBlock names) names _ placed
  constructor
  · intro listed
    rw [← read]
    exact read_table_strings _ _ found 0 _ table (by rw [count]; exact listed)
  · intro same
    rw [← read] at same
    have counted : found.length = names.length := by
      have lengths := congrArg List.length same
      simpa [count] using lengths.symm
    have listed := read_table_pointers _ _ found 0 _ table same
    rw [counted] at listed
    exact listed

theorem wide_text (text : List Char) (fits : (utf8 text).length + 1 < 2 ^ 31) :
    wideCharToMultiByte (utf16 text) = utf8 text ++ [0] := by
  rw [wideCharToMultiByte, scalars_text]
  exact if_pos (by simpa using fits)

theorem strings_texts (texts : List (List Char))
    (fits : ∀ text ∈ texts, '\x00' ∉ text ∧ (utf8 text).length + 1 < 2 ^ 31) :
    strings (texts.map utf16) = (texts.map utf8).map some := by
  induction texts with
  | nil => rfl
  | cons text texts ih =>
      obtain ⟨plain, short⟩ := fits text (.head _)
      have octets : 0 ∉ utf8 text := fun zero => plain ((utf8_zero text).mp zero)
      have read : readString (bytes (converted (utf16 text :: texts.map utf16))) = some (utf8 text) := by
        rw [converted, List.flatMap_cons, wide_text text short]
        simpa [bytes] using read_string_name (utf8 text) _ octets
      simp only [List.map_cons, strings, read, ih fun text member => fits text (.tail _ member)]

theorem converted_short (names : List (List UInt16)) (string : List UInt8)
    (read : readString (bytes (converted names)) = some string) : string.length + 1 < 2 ^ 31 := by
  induction names with
  | nil => cases read
  | cons name names ih =>
      rw [converted, List.flatMap_cons, ← converted, wideCharToMultiByte] at read
      split at read
      · rename_i short
        rw [List.length_append, List.length_singleton] at short
        have within := read_string_within _ (bytes (converted names)) string (by simpa [bytes] using read)
        omega
      · exact ih read

theorem strings_fit (texts : List (List Char)) (same : strings (texts.map utf16) = (texts.map utf8).map some) :
    ∀ text ∈ texts, (utf8 text).length + 1 < 2 ^ 31 := by
  induction texts with
  | nil => exact fun text member => nomatch member
  | cons text texts ih =>
      simp only [List.map_cons, strings, List.cons.injEq] at same
      exact List.forall_mem_cons.mpr ⟨converted_short _ _ same.1, ih same.2⟩

theorem store_zeros (size : Nat) (content : List UInt8) :
    store (List.replicate size 0) 0 content = content ++ List.replicate (size - content.length) 0 := by
  simp [store]

-- The loop around the query. The last size a ULONG holds is 2 ^ 31.
section
variable (table : NameTable) (streams : List StreamInformation)

theorem query_answered (doublings infoSize : Nat) (least : informationSize ≤ infoSize) (word : infoSize < 2 ^ 32)
    (room : (layout streams).length ≤ infoSize) :
    ((queryStreams table (doublings + 1) infoSize).run (streamQueries streams) ()).1 =
      listStreams (layout streams ++ List.replicate (infoSize - (layout streams).length) 0) := by
  simp only [queryStreams, Program.run_call, streamQueries, Nat.mod_eq_of_lt word]
  rw [if_neg (by omega), if_pos room, ← store_zeros]
  rfl

theorem query_doubled (doublings infoSize : Nat) (least : informationSize ≤ infoSize) (word : infoSize < 2 ^ 32)
    (short : infoSize < (layout streams).length) :
    (queryStreams table (doublings + 1) infoSize).run (streamQueries streams) () =
      (queryStreams table doublings (infoSize * 2)).run (streamQueries streams) () := by
  simp only [queryStreams, Program.run_call, streamQueries, Nat.mod_eq_of_lt word]
  rw [if_neg (by omega), if_neg (by omega)]

theorem query_fits (k doublings infoSize : Nat) (reach : infoSize * 2 ^ k = 2 ^ 31) (enough : k < doublings)
    (least : informationSize ≤ infoSize) (room : (layout streams).length ≤ 2 ^ 31) :
    ∃ more, ((queryStreams table doublings infoSize).run (streamQueries streams) ()).1 =
      listStreams (layout streams ++ List.replicate more 0) := by
  obtain ⟨doublings, rfl⟩ : ∃ less, doublings = less + 1 := ⟨doublings - 1, by omega⟩
  induction k generalizing doublings infoSize with
  | zero =>
      rw [Nat.pow_zero, Nat.mul_one] at reach
      exact ⟨_, query_answered table streams doublings infoSize least (by omega) (by omega)⟩
  | succ k ih =>
      have below : infoSize * 2 * 2 ^ k = 2 ^ 31 := by rw [← reach, Nat.pow_succ', Nat.mul_assoc]
      have positive := Nat.two_pow_pos k
      have word : infoSize < 2 ^ 32 := by
        have := Nat.le_mul_of_pos_right (infoSize * 2) positive
        omega
      by_cases fits : (layout streams).length ≤ infoSize
      · exact ⟨_, query_answered table streams doublings infoSize least word fits⟩
      · obtain ⟨less, rfl⟩ : ∃ less, doublings = less + 1 := ⟨doublings - 1, by omega⟩
        rw [query_doubled table streams (less + 1) infoSize least word (by omega)]
        exact ih (infoSize * 2) below (by omega) less (by omega)

theorem query_overflows (k doublings infoSize : Nat) (reach : infoSize * 2 ^ k = 2 ^ 31) (enough : k + 1 < doublings)
    (least : informationSize ≤ infoSize) (long : 2 ^ 31 < (layout streams).length) :
    ((queryStreams table doublings infoSize).run (streamQueries streams) ()).1 =
      some ⟨.error UvError.EIO, table, []⟩ := by
  obtain ⟨doublings, rfl⟩ : ∃ less, doublings = less + 2 := ⟨doublings - 2, by omega⟩
  induction k generalizing doublings infoSize with
  | zero =>
      rw [Nat.pow_zero, Nat.mul_one] at reach
      rw [query_doubled table streams (doublings + 1) infoSize least (by omega) (by omega), reach]
      rfl
  | succ k ih =>
      have below : infoSize * 2 * 2 ^ k = 2 ^ 31 := by rw [← reach, Nat.pow_succ', Nat.mul_assoc]
      have word : infoSize * 2 ≤ 2 ^ 31 := by
        have := Nat.le_mul_of_pos_right (infoSize * 2) (Nat.two_pow_pos k)
        omega
      obtain ⟨less, rfl⟩ : ∃ less, doublings = less + 1 := ⟨doublings - 1, by omega⟩
      rw [query_doubled table streams (less + 2) infoSize least (by omega) (by omega)]
      exact ih (infoSize * 2) below (by omega) less (by omega)

end

theorem list_attrs_fits (table : NameTable) (streams : List StreamInformation)
    (room : (layout streams).length ≤ 2 ^ 31) :
    ∃ more, ((listAttrs table).run (streamQueries streams) ()).1 =
      listStreams (layout streams ++ List.replicate more 0) :=
  query_fits table streams 25 58 64 (by decide) (by decide) (by decide) room

theorem list_attrs_overflows (table : NameTable) (streams : List StreamInformation)
    (long : 2 ^ 31 < (layout streams).length) :
    ((listAttrs table).run (streamQueries streams) ()).1 = some ⟨.error UvError.EIO, table, []⟩ :=
  query_overflows table streams 25 58 64 (by decide) (by decide) (by decide) long

theorem list_streams_counts (info : List UInt8) (listing : Listing) (ran : listStreams info = some listing) :
    ∃ counted, countStreams info.length info 0 = some counted ∧ ∀ touch ∈ counted.touches, touch ∈ listing.touches := by
  simp only [listStreams, Option.bind_eq_bind, Option.bind_eq_some_iff] at ran
  obtain ⟨counted, first, copied, _, made⟩ := ran
  obtain rfl := Option.some.inj made
  exact ⟨counted, first, fun touch member => List.mem_append_left _ member⟩

section
variable (streams : List StreamInformation) (more : List UInt8) (listing : Listing)

theorem inside_any (ran : listStreams (layout streams ++ more) = some listing)
    (inside : ∀ touch ∈ listing.touches, touch.Inside (bounds 0 streams)) : streams ≠ [] := by
  rintro rfl
  obtain ⟨counted, first, subset⟩ := list_streams_counts _ listing ran
  obtain ⟨whole, _, member⟩ := count_streams_first _ _ _ counted first
  obtain ⟨stop, entry, _⟩ := inside _ (subset _ member)
  cases entry

theorem inside_ended (ran : listStreams (layout streams ++ more) = some listing)
    (room : (layout streams).length < 2 ^ 32)
    (inside : ∀ touch ∈ listing.touches, touch.Inside (bounds 0 streams)) :
    ∀ stream ∈ streams, 0 ∈ stream.padding := by
  intro stream member
  by_contra filled
  obtain ⟨counted, first, subset⟩ := list_streams_counts _ listing ran
  obtain ⟨touch, touched, stop, entry, beyond⟩ :=
    count_streams_beyond streams _ [] more counted ⟨stream, member, filled⟩ room first
  obtain ⟨stop', entry', _, within⟩ := inside touch (subset touch touched)
  have same := bounds_unique streams 0 touch.entry stop stop' entry entry'
  omega

end

theorem named_mem (streams : List StreamInformation) (name : List UInt16) :
    name ∈ named streams ↔ name ≠ [] ∧ ∃ stream ∈ streams, stream.name = name := by
  simp only [named, List.mem_filter, List.mem_map, decide_eq_true_eq, and_comm]

theorem named_texts (names : List (List UInt16))
    (text : ∀ name ∈ names, ∃ text, utf16 text = name ∧ (utf8 text).length + 1 < 2 ^ 31) :
    ∃ texts : List (List Char), texts.map utf16 = names ∧ ∀ text ∈ texts, (utf8 text).length + 1 < 2 ^ 31 := by
  induction names with
  | nil => exact ⟨[], rfl, fun text member => nomatch member⟩
  | cons name names ih =>
      obtain ⟨first, same, short⟩ := text name (.head _)
      obtain ⟨texts, rest, shorts⟩ := ih fun name member => text name (.tail _ member)
      exact ⟨first :: texts, by rw [List.map_cons, same, rest], List.forall_mem_cons.mpr ⟨short, shorts⟩⟩

theorem decodable_listed (streams : List StreamInformation) (decodable : Decodable streams) (more : List UInt8) :
    ∃ listing texts, listStreams (layout streams ++ more) = some listing ∧ Exact streams listing texts := by
  have room := decodable.room
  obtain ⟨touches, listed, inside⟩ := list_streams streams more decodable.any
    (fun stream member => List.mem_of_head? (decodable.ended stream member)) (by omega)
  rw [found_named streams decodable.ended] at listed
  obtain ⟨texts, names, short⟩ := named_texts (named streams) fun name member => by
    obtain ⟨_, stream, there, rfl⟩ := (named_mem streams name).mp member
    exact decodable.text stream there
  have fits : ∀ text ∈ texts, '\x00' ∉ text ∧ (utf8 text).length + 1 < 2 ^ 31 := fun text member => by
    obtain ⟨_, stream, _, same⟩ := (named_mem streams (utf16 text)).mp (names ▸ List.mem_map_of_mem member)
    exact ⟨utf16_plain text (same ▸ stream.plain), short text member⟩
  refine ⟨_, texts, listed, rfl, ?_, names, inside⟩
  exact (listed_iff (named streams) (texts.map utf8)).mpr (names ▸ strings_texts texts fits)

theorem lists_decodable (table : NameTable) (streams : List StreamInformation) (decodable : Decodable streams) :
    ListsExactly table streams := by
  obtain ⟨more, ran⟩ := list_attrs_fits table streams decodable.room
  obtain ⟨listing, texts, listed, exact_⟩ := decodable_listed streams decodable (List.replicate more 0)
  exact ⟨listing, texts, ran.trans listed, exact_⟩

theorem StreamInformation.cut_name_same (stream : StreamInformation) (same : stream.cutName = stream.name) :
    stream.behind = [] := by
  have lengths := stream.cut_name_length
  rw [same] at lengths
  exact List.length_eq_zero_iff.mp (by omega)

theorem utf16_append (front rest : List Char) : utf16 (front ++ rest) = utf16 front ++ utf16 rest :=
  List.flatMap_append

theorem utf8_append (front rest : List Char) : utf8 (front ++ rest) = utf8 front ++ utf8 rest :=
  List.flatMap_append

theorem suffix_text (count : Nat) (short : count ≤ 6) :
    utf16 (":$DATA".toList.take count) = dataSuffix.take count := by
  match count with
  | 0 | 1 | 2 | 3 | 4 | 5 | 6 => rfl

theorem suffix_octets (count : Nat) (short : count ≤ 6) : (utf8 (":$DATA".toList.take count)).length = count := by
  match count with
  | 0 | 1 | 2 | 3 | 4 | 5 | 6 => rfl

-- A name that wcslen takes too far is not listed as it is: it comes out longer, or,
-- too long to be converted, as the name behind it, and there is no room for two
-- names of that length.
theorem strings_cut (streams : List StreamInformation) (texts : List (List Char))
    (names : texts.map utf16 = streams.map StreamInformation.name)
    (read : strings (streams.map StreamInformation.cutName) = (texts.map utf8).map some)
    (room : (layout streams).length ≤ 2 ^ 31) : ∀ stream ∈ streams, stream.behind = [] := by
  induction streams generalizing texts with
  | nil => exact fun stream member => nomatch member
  | cons stream streams ih =>
      obtain ⟨text, texts, rfl, same, names⟩ := List.map_eq_cons_iff.mp names
      simp only [List.map_cons, strings, List.cons.injEq] at read
      obtain ⟨first, read⟩ := read
      rw [layout_cons] at room
      have rest := ih texts names read (by omega)
      have kept : streams.map StreamInformation.cutName = texts.map utf16 := by
        rw [names]
        refine List.map_congr_left fun other member => ?_
        rw [StreamInformation.cutName, rest other member]
        exact List.append_nil _
      refine List.forall_mem_cons.mpr ⟨?_, rest⟩
      have short := stream.behind_short
      have spelled : stream.cutName = utf16 (text ++ ":$DATA".toList.take stream.behind.length) := by
        rw [utf16_append, same, suffix_text _ (by omega), StreamInformation.cutName]
      by_cases fits : (utf8 (text ++ ":$DATA".toList.take stream.behind.length)).length + 1 < 2 ^ 31
      · have plain : 0 ∉ utf8 (text ++ ":$DATA".toList.take stream.behind.length) := fun zero =>
          utf16_plain _ (spelled ▸ stream.plain_cut) ((utf8_zero _).mp zero)
        have string : readString (bytes (converted (stream.cutName :: streams.map StreamInformation.cutName))) =
            some (utf8 (text ++ ":$DATA".toList.take stream.behind.length)) := by
          rw [converted, List.flatMap_cons, spelled, wide_text _ fits]
          simpa [bytes] using read_string_name _ _ plain
        have lengths := congrArg List.length (Option.some.inj (string.symm.trans first))
        rw [utf8_append, List.length_append, suffix_octets _ (by omega)] at lengths
        exact List.length_eq_zero_iff.mp (by omega)
      · have none_ : wideCharToMultiByte stream.cutName = [] := by
          rw [spelled, wideCharToMultiByte, scalars_text]
          exact if_neg (by simpa using fits)
        rw [converted, List.flatMap_cons, none_, List.nil_append, ← converted, kept] at first
        cases texts with
        | nil => cases first
        | cons next texts =>
            obtain ⟨other, streams, rfl, same', _⟩ := List.map_eq_cons_iff.mp names.symm
            rw [kept, List.map_cons, List.map_cons, List.map_cons, strings] at read
            have equal := Option.some.inj ((List.cons.inj read).1.symm.trans first)
            have repeated : utf16 text = utf16 next := congrArg utf16 (utf8_injective next text equal).symm
            have long := utf8_length_le text
            rw [utf8_append, List.length_append, suffix_octets _ (by omega)] at fits
            have size := stream.entry_size_eq
            have size' := other.entry_size_eq
            have count := congrArg List.length same
            have count' := congrArg List.length same'
            rw [repeated] at count
            rw [repeated] at long
            rw [layout_cons] at room
            omega

theorem layout_filter (streams : List StreamInformation) (keep : StreamInformation → Bool) :
    (layout (streams.filter keep)).length ≤ (layout streams).length := by
  induction streams with
  | nil => exact Nat.le_refl _
  | cons stream streams ih =>
      rw [List.filter_cons, layout_cons]
      split
      · rw [layout_cons]
        omega
      · omega

theorem strings_length (names : List (List UInt16)) : (strings names).length = names.length := by
  induction names with
  | nil => rfl
  | cons name names ih => rw [strings, List.length_cons, List.length_cons, ih]

theorem strings_ended (streams : List StreamInformation) (texts : List (List Char))
    (ended : ∀ stream ∈ streams, 0 ∈ stream.padding) (names : texts.map utf16 = named streams)
    (read : strings (found streams) = (texts.map utf8).map some) (room : (layout streams).length ≤ 2 ^ 31) :
    ∀ stream ∈ streams, stream.padding.head? = some 0 := by
  let isNamed : StreamInformation → Bool := fun stream => stream.name ≠ []
  let isFound : StreamInformation → Bool := fun stream => stream.cutName ≠ []
  have named_ : named streams = (streams.filter isNamed).map StreamInformation.name := List.filter_map ..
  have found_ : found streams = (streams.filter isFound).map StreamInformation.cutName := List.filter_map ..
  have longer : ∀ stream, isNamed stream = true → isFound stream = true := by
    intro stream some_
    have kept := List.append_ne_nil_of_left_ne_nil (of_decide_eq_true some_) (dataSuffix.take stream.behind.length)
    exact decide_eq_true kept
  have lengths : (streams.filter isNamed).length = (streams.filter isFound).length := by
    have count := congrArg List.length read
    have count' := congrArg List.length names
    rw [strings_length, found_, List.length_map, List.length_map, List.length_map] at count
    rw [named_, List.length_map, List.length_map] at count'
    omega
  have alike := (List.monotone_filter_right streams longer).eq_of_length lengths
  rw [found_, ← alike] at read
  rw [named_] at names
  have smaller := layout_filter streams isNamed
  have none_ := strings_cut (streams.filter isNamed) texts names read (by omega)
  intro stream member
  have behind : stream.behind = [] := by
    by_cases kept : isNamed stream = true
    · exact none_ stream (List.mem_filter.mpr ⟨member, kept⟩)
    · have dropped : isFound stream ≠ true := fun gained =>
        kept (List.mem_filter.mp (alike ▸ List.mem_filter.mpr ⟨member, gained⟩)).2
      have empty : stream.name = [] := by simpa [isNamed] using kept
      have empty' : stream.cutName = [] := by simpa [isFound] using dropped
      exact stream.cut_name_same (empty'.trans empty.symm)
  obtain ⟨rest, split⟩ := stream.padding_split (ended stream member)
  rw [split, behind]
  rfl

theorem lists_exactly_decodable (table : NameTable) (streams : List StreamInformation)
    (lists : ListsExactly table streams) : Decodable streams := by
  obtain ⟨listing, texts, ran, exact_⟩ := lists
  have room : (layout streams).length ≤ 2 ^ 31 := by
    by_contra long
    rw [list_attrs_overflows table streams (by omega)] at ran
    obtain rfl := Option.some.inj ran
    cases exact_.status
  obtain ⟨more, fits⟩ := list_attrs_fits table streams room
  rw [fits] at ran
  have any := inside_any streams _ listing ran exact_.inside
  have padded := inside_ended streams _ listing ran (by omega) exact_.inside
  obtain ⟨touches, listed, _⟩ := list_streams streams (List.replicate more 0) any padded (by omega)
  obtain rfl := Option.some.inj (listed.symm.trans ran)
  have read := (listed_iff (found streams) (texts.map utf8)).mp exact_.listed
  have ended := strings_ended streams texts padded exact_.names read room
  rw [found_named streams ended, ← exact_.names] at read
  have short := strings_fit texts read
  refine ⟨any, ended, fun stream member => ?_, room⟩
  by_cases unnamed : stream.name = []
  · exact ⟨[], unnamed.symm, by decide⟩
  · have there := (named_mem streams stream.name).mpr ⟨unnamed, stream, member, rfl⟩
    rw [← exact_.names] at there
    obtain ⟨text, found, same⟩ := List.mem_map.mp there
    exact ⟨text, same, short text found⟩

theorem list_attrs_exact_iff (table : NameTable) (streams : List StreamInformation) :
    ListsExactly table streams ↔ Decodable streams :=
  ⟨lists_exactly_decodable table streams, lists_decodable table streams⟩

theorem short_names_altered :
    (((listAttrs ⟨none, 0⟩).run (streamQueries shortNames) ()).1.bind fun listing => listing.table.listed) =
        some [utf8 "a:".toList, utf8 "b".toList, utf8 "c".toList] ∧
      named shortNames = [utf16 "a".toList, utf16 "b".toList, utf16 "c".toList] ∧
      ¬ ListsExactly ⟨none, 0⟩ shortNames := by
  refine ⟨by decide +kernel, by decide, fun lists => ?_⟩
  exact absurd ((lists_exactly_decodable ⟨none, 0⟩ shortNames lists).ended _ (.head _)) (by decide)

end FsExt.Attr.Windows
