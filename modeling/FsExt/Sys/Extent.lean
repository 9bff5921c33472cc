import Mathlib

set_option autoImplicit false

namespace Sys

section
variable {α : Type} (blank : α)

def writeAt (offset : Nat) (data file : List α) : List α :=
  file.take offset ++ List.replicate (offset - file.length) blank ++ data ++ file.drop (offset + data.length)

def wipe (start stop : Nat) (file : List α) : List α :=
  file.mapIdx fun i byte => if start ≤ i ∧ i < stop then blank else byte

@[simp] theorem write_at_length (offset : Nat) (data file : List α) :
    (writeAt blank offset data file).length = max file.length (offset + data.length) := by
  simp only [writeAt, List.length_append, List.length_take, List.length_replicate, List.length_drop]
  omega

@[simp] theorem wipe_length (start stop : Nat) (file : List α) : (wipe blank start stop file).length = file.length :=
  List.length_mapIdx

theorem wipe_at (start stop i : Nat) (file : List α) (bound : i < file.length) :
    (wipe blank start stop file)[i]? = some (if start ≤ i ∧ i < stop then blank else file[i]) := by
  rw [List.getElem?_eq_getElem (by simpa using bound)]
  simp [wipe]

theorem wipe_empty (start stop : Nat) (file : List α) (empty : stop ≤ start) : wipe blank start stop file = file := by
  refine List.ext_getElem? fun i => ?_
  by_cases bound : i < file.length
  · rw [wipe_at blank start stop i file bound, if_neg (by omega), List.getElem?_eq_getElem bound]
  · rw [List.getElem?_eq_none (by simpa using bound), List.getElem?_eq_none (by simpa using bound)]

theorem wipe_wipe (start middle stop : Nat) (file : List α) (low : start ≤ middle) (high : middle ≤ stop) :
    wipe blank middle stop (wipe blank start middle file) = wipe blank start stop file := by
  refine List.ext_getElem? fun i => ?_
  by_cases bound : i < file.length
  · rw [wipe_at blank middle stop i _ (by simpa using bound), wipe_at blank start stop i file bound]
    have inner := wipe_at blank start middle i file bound
    rw [List.getElem?_eq_getElem (by simpa using bound)] at inner
    rw [Option.some.inj inner]
    congr 1
    by_cases before : i < middle
    · rw [if_neg (by omega)]
      by_cases reached : start ≤ i
      · rw [if_pos ⟨reached, before⟩, if_pos ⟨reached, by omega⟩]
      · rw [if_neg (by omega), if_neg (by omega)]
    · by_cases after : i < stop
      · rw [if_pos ⟨by omega, after⟩, if_pos ⟨by omega, after⟩]
      · rw [if_neg (by omega), if_neg (by omega), if_neg (by omega)]
  · rw [List.getElem?_eq_none (by simpa using bound), List.getElem?_eq_none (by simpa using bound)]

theorem write_blank_inside (offset count : Nat) (file : List α) (inside : offset + count ≤ file.length) :
    writeAt blank offset (List.replicate count blank) file = wipe blank offset (offset + count) file := by
  refine List.ext_getElem? fun i => ?_
  by_cases bound : i < file.length
  · have gap : offset - file.length = 0 := by omega
    rw [wipe_at blank offset _ i file bound, writeAt, gap, List.replicate_zero, List.append_nil]
    by_cases before : i < offset
    · rw [if_neg (by omega), List.append_assoc, List.getElem?_append_left (by simp; omega),
        List.getElem?_take_of_lt before, List.getElem?_eq_getElem bound]
    · have front : (file.take offset).length = offset := by simp; omega
      rw [List.append_assoc, List.getElem?_append_right (by omega), front]
      by_cases within : i < offset + count
      · rw [if_pos ⟨by omega, within⟩, List.getElem?_append_left (by simp; omega),
          List.getElem?_replicate_of_lt (by omega)]
      · rw [if_neg (by omega), List.getElem?_append_right (by simp; omega), List.length_replicate,
          List.getElem?_drop, List.getElem?_eq_getElem (by omega)]
        congr 2
        omega
  · have outside : file.length ≤ i := by omega
    rw [List.getElem?_eq_none (by simp; omega), List.getElem?_eq_none (by simpa using outside)]

def fill (start stop : Nat) (file : List α) : List α :=
  if start < stop then writeAt blank start (List.replicate (stop - start) blank) file else file

theorem fill_empty (start stop : Nat) (file : List α) (empty : stop ≤ start) : fill blank start stop file = file :=
  if_neg (by omega)

theorem fill_length (start stop : Nat) (file : List α) :
    (fill blank start stop file).length = if start < stop then max file.length stop else file.length := by
  rw [fill]
  split
  · rename_i forward
    rw [write_at_length, List.length_replicate]
    congr 1
    omega
  · rfl

theorem fill_inside (start stop : Nat) (file : List α) (inside : start < stop → stop ≤ file.length) :
    fill blank start stop file = wipe blank start stop file := by
  rw [fill]
  split
  · rename_i forward
    have bound := inside forward
    rw [write_blank_inside blank start (stop - start) file (by omega)]
    congr 1
    omega
  · rw [wipe_empty blank start stop file (by omega)]

theorem fill_wipe_fill (start first last stop : Nat) (file : List α) (low : start ≤ first) (middle : first ≤ last)
    (high : last ≤ stop) :
    fill blank last stop (wipe blank first last (fill blank start first file)) = wipe blank start stop file ↔
      (start < first → first ≤ file.length) ∧ (last < stop → stop ≤ file.length) := by
  constructor
  · intro same
    have lengths := congrArg List.length same
    rw [fill_length, wipe_length, fill_length, wipe_length] at lengths
    constructor
    · intro head
      rw [if_pos head] at lengths
      split at lengths
      · omega
      · omega
    · intro tail
      rw [if_pos tail] at lengths
      split at lengths
      · omega
      · omega
  · intro inside
    obtain ⟨head, tail⟩ := inside
    rw [fill_inside blank start first file head, wipe_wipe blank start first last file low middle,
      fill_inside blank last stop _ (by simpa using tail), wipe_wipe blank start last stop file (by omega) high]

def content (i : Nat) (file : List α) : α := (file[i]?).getD blank

theorem content_some (i : Nat) (file : List α) (bound : i < file.length) : file[i]? = some (content blank i file) := by
  rw [content, List.getElem?_eq_getElem bound, Option.getD_some]

theorem content_past (i : Nat) (file : List α) (past : file.length ≤ i) : content blank i file = blank := by
  rw [content, List.getElem?_eq_none past, Option.getD_none]

theorem content_wipe (start stop i : Nat) (file : List α) :
    content blank i (wipe blank start stop file) = if start ≤ i ∧ i < stop then blank else content blank i file := by
  by_cases bound : i < file.length
  · rw [content, wipe_at blank start stop i file bound, content, List.getElem?_eq_getElem bound]
    rfl
  · rw [content_past blank i _ (by simpa using bound), content_past blank i file (by omega), ite_self]

theorem content_write_blank (offset count i : Nat) (file : List α) :
    content blank i (writeAt blank offset (List.replicate count blank) file) =
      if offset ≤ i ∧ i < offset + count then blank else content blank i file := by
  have front : (file.take offset ++ List.replicate (offset - file.length) blank).length = offset := by
    simp only [List.length_append, List.length_take, List.length_replicate]
    omega
  rw [content, writeAt, List.append_assoc, List.length_replicate]
  by_cases before : i < offset
  · rw [List.getElem?_append_left (by omega), if_neg (by omega)]
    by_cases bound : i < file.length
    · rw [List.getElem?_append_left (by simp; omega), List.getElem?_take_of_lt before]
      rfl
    · rw [List.getElem?_append_right (by simp; omega), List.getElem?_replicate_of_lt (by simp; omega),
        content_past blank i file (by omega)]
      rfl
  · rw [List.getElem?_append_right (by omega), front]
    by_cases within : i < offset + count
    · rw [List.getElem?_append_left (by simp; omega), List.getElem?_replicate_of_lt (by omega), if_pos ⟨by omega, within⟩]
      rfl
    · rw [List.getElem?_append_right (by simp; omega), List.getElem?_drop, List.length_replicate, if_neg (by omega),
        content]
      congr 3
      omega

theorem content_fill (start stop i : Nat) (file : List α) :
    content blank i (fill blank start stop file) = if start ≤ i ∧ i < stop then blank else content blank i file := by
  rw [fill]
  by_cases forward : start < stop
  · rw [if_pos forward, content_write_blank, show start + (stop - start) = stop by omega]
  · rw [if_neg forward, if_neg (by omega)]

theorem fill_grows (start stop : Nat) (file : List α) : file.length ≤ (fill blank start stop file).length := by
  rw [fill_length]
  split
  · exact Nat.le_max_left _ _
  · exact Nat.le_refl _

def Blank (start stop : Nat) (file : List α) : Prop :=
  ∀ i, start ≤ i → i < stop → i < file.length → file[i]? = some blank

theorem blank_iff (start stop : Nat) (file : List α) :
    Blank blank start stop file ↔ ∀ i, start ≤ i → i < stop → content blank i file = blank := by
  constructor
  · intro blanks i reached inside
    by_cases bound : i < file.length
    · rw [content, blanks i reached inside bound, Option.getD_some]
    · exact content_past blank i file (by omega)
  · intro blanks i reached inside bound
    rw [content_some blank i file bound, blanks i reached inside]

structure Within (start stop : Nat) (file final : List α) : Prop where
  long : file.length ≤ final.length
  kept : ∀ i, content blank i final = content blank i file ∨ start ≤ i ∧ i < stop ∧ content blank i final = blank

theorem within_refl (start stop : Nat) (file : List α) : Within blank start stop file file :=
  ⟨Nat.le_refl _, fun _ => .inl rfl⟩

theorem within_blanked (start stop first last : Nat) (file middle final : List α)
    (within : Within blank start stop file middle) (low : start ≤ first) (high : last ≤ stop)
    (long : middle.length ≤ final.length)
    (left : ∀ i, content blank i final = if first ≤ i ∧ i < last then blank else content blank i middle) :
    Within blank start stop file final := by
  refine ⟨Nat.le_trans within.long long, fun i => ?_⟩
  rw [left]
  by_cases inside : first ≤ i ∧ i < last
  · rw [if_pos inside]
    exact .inr ⟨by omega, by omega, rfl⟩
  · rw [if_neg inside]
    exact within.kept i

theorem within_fill (start stop first last : Nat) (file middle : List α) (within : Within blank start stop file middle)
    (low : start ≤ first) (high : last ≤ stop) : Within blank start stop file (fill blank first last middle) :=
  within_blanked blank start stop first last file middle _ within low high (fill_grows blank first last middle)
    fun i => content_fill blank first last i middle

theorem within_wipe (start stop first last : Nat) (file middle : List α) (within : Within blank start stop file middle)
    (low : start ≤ first) (high : last ≤ stop) : Within blank start stop file (wipe blank first last middle) :=
  within_blanked blank start stop first last file middle _ within low high
    (Nat.le_of_eq (wipe_length blank first last middle).symm) fun i => content_wipe blank first last i middle

theorem kept_iff (wiped : Nat → Prop) [DecidablePred wiped] (file final : List α) (long : file.length ≤ final.length)
    (left : ∀ i, content blank i final = if wiped i then blank else content blank i file) :
    (∀ i, i < file.length → final[i]? = file[i]?) ↔ ∀ i, wiped i → i < file.length → file[i]? = some blank := by
  constructor
  · intro kept i reached bound
    rw [← kept i bound, content_some blank i final (by omega), left, if_pos reached]
  · intro blanks i bound
    rw [content_some blank i final (by omega), left]
    by_cases reached : wiped i
    · rw [if_pos reached, blanks i reached bound]
    · rw [if_neg reached, ← content_some blank i file bound]

section
variable (start head first last tail stop : Nat) (file : List α)

theorem parts_content (i : Nat) :
    content blank i (fill blank last tail (wipe blank first last (fill blank start head file))) =
      if last ≤ i ∧ i < tail then blank else if first ≤ i ∧ i < last then blank else
        if start ≤ i ∧ i < head then blank else content blank i file := by
  rw [content_fill, content_wipe, content_fill]

theorem parts_grow :
    file.length ≤ (fill blank last tail (wipe blank first last (fill blank start head file))).length := by
  refine Nat.le_trans ?_ (fill_grows blank last tail _)
  rw [wipe_length]
  exact fill_grows blank start head file

theorem parts_blank_iff (low : start ≤ head) (early : head ≤ first) (middle : first ≤ last) (late : last ≤ tail)
    (high : tail ≤ stop) :
    Blank blank start stop (fill blank last tail (wipe blank first last (fill blank start head file))) ↔
      Blank blank head first file ∧ Blank blank tail stop file := by
  simp only [blank_iff, parts_content]
  constructor
  · intro zero
    refine ⟨fun i reached inside => ?_, fun i reached inside => ?_⟩
    · have here := zero i (by omega) (by omega)
      rw [if_neg (by omega), if_neg (by omega), if_neg (by omega)] at here
      exact here
    · have here := zero i (by omega) (by omega)
      rw [if_neg (by omega), if_neg (by omega), if_neg (by omega)] at here
      exact here
  · rintro ⟨headBlank, tailBlank⟩ i reached inside
    by_cases inTail : last ≤ i
    · by_cases written : i < tail
      · rw [if_pos ⟨inTail, written⟩]
      · rw [if_neg (by omega), if_neg (by omega), if_neg (by omega)]
        exact tailBlank i (by omega) inside
    · rw [if_neg (by omega)]
      by_cases inHole : first ≤ i
      · rw [if_pos ⟨inHole, by omega⟩]
      · rw [if_neg (by omega)]
        by_cases written : i < head
        · rw [if_pos ⟨reached, written⟩]
        · rw [if_neg (by omega)]
          exact headBlank i (by omega) (by omega)

theorem parts_kept (i : Nat) (early : head ≤ first) (middle : first ≤ last) (high : tail ≤ stop) (whole : last ≤ stop)
    (low : start ≤ first) (bound : i < file.length) (outside : ¬ (start ≤ i ∧ i < stop)) :
    (fill blank last tail (wipe blank first last (fill blank start head file)))[i]? = file[i]? := by
  have grown := parts_grow blank start head first last tail file
  rw [content_some blank i _ (by omega), content_some blank i file bound, parts_content, if_neg (by omega),
    if_neg (by omega), if_neg (by omega)]

end

end

def Tiles : List (Nat × Nat) → Nat → Nat → Prop
  | [], start, stop => start = stop
  | range :: rest, start, stop => range.1 = start ∧ start ≤ range.2 ∧ Tiles rest range.2 stop

theorem tiles_append (front rest : List (Nat × Nat)) (start middle stop : Nat) (first : Tiles front start middle)
    (second : Tiles rest middle stop) : Tiles (front ++ rest) start stop := by
  induction front generalizing start with
  | nil => exact (show start = middle from first) ▸ second
  | cons range front ih => exact ⟨first.1, first.2.1, ih range.2 first.2.2⟩

theorem tiles_from (ranges : List (Nat × Nat)) (start stop : Nat) (tiles : Tiles ranges start stop) :
    start ≤ stop ∧ ∀ range ∈ ranges, start ≤ range.1 := by
  induction ranges generalizing start with
  | nil => exact ⟨Nat.le_of_eq tiles, fun _ member => nomatch member⟩
  | cons range rest ih =>
      obtain ⟨same, forward, later⟩ := tiles
      obtain ⟨reached, after⟩ := ih range.2 later
      refine ⟨by omega, fun other member => ?_⟩
      rcases List.mem_cons.mp member with rfl | member
      · omega
      · have := after other member
        omega

theorem tiles_ordered (ranges : List (Nat × Nat)) (start stop : Nat) (tiles : Tiles ranges start stop) :
    ranges.Pairwise fun range later => range.2 ≤ later.1 := by
  induction ranges generalizing start with
  | nil => exact .nil
  | cons range rest ih => exact .cons (tiles_from rest range.2 stop tiles.2.2).2 (ih range.2 tiles.2.2)

theorem tiles_sum (ranges : List (Nat × Nat)) (start stop : Nat) (tiles : Tiles ranges start stop) :
    (ranges.map fun range => range.2 - range.1).sum = stop - start := by
  induction ranges generalizing start with
  | nil =>
      have same : start = stop := tiles
      rw [same, Nat.sub_self]
      rfl
  | cons range rest ih =>
      obtain ⟨same, forward, later⟩ := tiles
      have reached := (tiles_from rest range.2 stop later).1
      rw [List.map_cons, List.sum_cons, ih range.2 later]
      omega

theorem tiles_cover (ranges : List (Nat × Nat)) (start stop i : Nat) (tiles : Tiles ranges start stop) :
    (∃ range ∈ ranges, range.1 ≤ i ∧ i < range.2) ↔ start ≤ i ∧ i < stop := by
  induction ranges generalizing start with
  | nil =>
      have same : start = stop := tiles
      simp only [List.not_mem_nil, false_and, exists_false, false_iff]
      omega
  | cons range rest ih =>
      obtain ⟨same, forward, later⟩ := tiles
      have reached := (tiles_from rest range.2 stop later).1
      simp only [List.mem_cons, or_and_right, exists_or, exists_eq_left, ih range.2 later]
      omega

def alignUp (n align : Nat) : Nat := (n + (align - 1)) / align * align

def alignDown (n align : Nat) : Nat := n / align * align

theorem align_down_le (n align : Nat) : alignDown n align ≤ n := Nat.div_mul_le_self n align

theorem align_down_eq_iff (n align : Nat) : alignDown n align = n ↔ align ∣ n := by
  rw [alignDown]
  exact ⟨fun same => ⟨n / align, by rw [Nat.mul_comm]; exact same.symm⟩, Nat.div_mul_cancel⟩

theorem align_down_small (n align : Nat) (small : alignDown n align < align) :
    alignDown n align = 0 := by
  rw [alignDown] at *
  have zero : n / align = 0 := by
    by_contra some
    exact absurd small (Nat.not_lt.mpr (Nat.le_mul_of_pos_left align (Nat.pos_of_ne_zero some)))
  rw [zero, Nat.zero_mul]

theorem align_down_gt (n align : Nat) (positive : 0 < align) : n < alignDown n align + align := by
  have split := Nat.div_add_mod n align
  have rest := Nat.mod_lt n positive
  rw [alignDown, Nat.mul_comm]
  omega

theorem align_down_dvd (n align : Nat) : align ∣ alignDown n align := Nat.dvd_mul_left _ _

theorem align_down_ge (n align bound : Nat) (positive : 0 < align) (multiple : align ∣ bound) (below : bound ≤ n) :
    bound ≤ alignDown n align := by
  obtain ⟨count, rfl⟩ := multiple
  rw [alignDown, Nat.mul_comm align count]
  exact Nat.mul_le_mul_right align ((Nat.le_div_iff_mul_le positive).mpr (by rw [Nat.mul_comm]; exact below))

theorem align_down_eq (n align bound : Nat) (multiple : align ∣ bound) (below : bound ≤ n)
    (close : n < bound + align) : alignDown n align = bound := by
  obtain ⟨count, rfl⟩ := multiple
  rw [alignDown, Nat.div_eq_of_lt_le (k := count) (by rw [Nat.mul_comm]; exact below)
    (by rw [Nat.add_mul, Nat.one_mul, Nat.mul_comm]; exact close), Nat.mul_comm]

theorem align_up_dvd (n align : Nat) : align ∣ alignUp n align := Nat.dvd_mul_left _ _

theorem align_up_ge (n align : Nat) (positive : 0 < align) : n ≤ alignUp n align := by
  have split := Nat.div_add_mod (n + (align - 1)) align
  have rest := Nat.mod_lt (n + (align - 1)) positive
  rw [alignUp, Nat.mul_comm]
  omega

theorem align_up_lt (n align : Nat) (positive : 0 < align) : alignUp n align < n + align := by
  have below := Nat.div_mul_le_self (n + (align - 1)) align
  rw [alignUp]
  omega

theorem align_up_le (n align bound : Nat) (positive : 0 < align) (multiple : align ∣ bound) (below : n ≤ bound) :
    alignUp n align ≤ bound := by
  obtain ⟨count, rfl⟩ := multiple
  rw [alignUp, Nat.mul_comm align count]
  have few : (n + (align - 1)) / align < count + 1 :=
    (Nat.div_lt_iff_lt_mul positive).mpr (by rw [Nat.add_mul, Nat.one_mul, Nat.mul_comm count]; omega)
  exact Nat.mul_le_mul_right align (by omega)

theorem align_up_eq_iff (n align : Nat) (positive : 0 < align) : alignUp n align = n ↔ align ∣ n := by
  constructor
  · intro same
    exact same ▸ align_up_dvd n align
  · intro multiple
    exact Nat.le_antisymm (align_up_le n align n positive multiple (Nat.le_refl n)) (align_up_ge n align positive)

theorem mask_low (n k width : Nat) (fits : k ≤ width) (bound : n < 2 ^ width) :
    n &&& (2 ^ width - 2 ^ k) = alignDown n (2 ^ k) := by
  have positive : 0 < 2 ^ k := Nat.two_pow_pos k
  have shape : 2 ^ width - 2 ^ k = 2 ^ width - ((2 ^ k - 1) + 1) := by omega
  have small : 2 ^ k - 1 < 2 ^ width := by
    have := Nat.pow_le_pow_right (show 0 < 2 by omega) fits
    omega
  refine Nat.eq_of_testBit_eq fun i => ?_
  rw [Nat.testBit_and, shape, Nat.testBit_two_pow_sub_succ small, Nat.testBit_two_pow_sub_one, alignDown,
    Nat.testBit_mul_two_pow, Nat.testBit_div_two_pow]
  by_cases low : k ≤ i
  · by_cases high : i < width
    · simp [low, high]
    · have far : n.testBit i = false :=
        Nat.testBit_lt_two_pow (Nat.lt_of_lt_of_le bound (Nat.pow_le_pow_right (by omega) (by omega)))
      simp [low, high, far]
  · have below : i < k := by omega
    simp [low, below]

end Sys
