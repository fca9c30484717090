import Mathlib

/-!
# Filling buckets in order

Items are put into a bucket one after the other, and a new bucket is begun when
the next item does not fit.  The division of the items into buckets that this
yields is the only one in which every bucket fits and none could have taken the
item after it.  An item larger than a bucket has one to itself.
-/

namespace OneShotOPD.FirstFit

variable {α : Type} (capacity : ℕ) (size : α → ℕ)

def total (items : List α) : ℕ := (items.map size).sum

@[simp]
theorem total_nil : total size [] = 0 := rfl

@[simp]
theorem total_cons (item : α) (items : List α) :
    total size (item :: items) = size item + total size items := by
  simp [total]

@[simp]
theorem total_append (first second : List α) :
    total size (first ++ second) = total size first + total size second := by
  simp [total]

theorem total_singleton (item : α) : total size [item] = size item := by simp

/-- The buckets, from the bucket that is being filled. -/
def fill : List α → List α → List (List α)
  | current, [] => if current = [] then [] else [current]
  | current, item :: items =>
      if current ≠ [] ∧ capacity < total size current + size item then
        current :: fill [item] items
      else fill (current ++ [item]) items

/-- A division of items into buckets that could not be filled further. -/
structure Division (items : List α) (runs : List (List α)) : Prop where
  flatten : runs.flatten = items
  nonempty : ∀ run ∈ runs, run ≠ []
  fits : ∀ run ∈ runs, total size run ≤ capacity ∨ run.length = 1
  maximal : runs.IsChain fun run next =>
    ∀ first ∈ next.head?, capacity < total size run + size first

/-- An item stands in its bucket behind items of the given total size. -/
def StartsAt (runs : List (List α)) (start : ℕ) (item : α) : Prop :=
  ∃ run ∈ runs, ∃ before after, run = before ++ item :: after ∧
    start = total size before

/-- The items of a bucket, each with the place it starts at. -/
def starts : ℕ → List α → List (α × ℕ)
  | _, [] => []
  | start, item :: items => (item, start) :: starts (start + size item) items

variable {capacity size}

theorem fill_nil (current : List α) :
    fill capacity size current [] = if current = [] then [] else [current] := by
  simp [fill]

theorem fill_cons_of_full {current : List α} {item : α} {items : List α}
    (hcurrent : current ≠ []) (hfull : capacity < total size current + size item) :
    fill capacity size current (item :: items) =
      current :: fill capacity size [item] items := by
  simp [fill, hcurrent, hfull]

theorem fill_cons_of_fits {current : List α} {item : α} {items : List α}
    (hfits : current = [] ∨ total size current + size item ≤ capacity) :
    fill capacity size current (item :: items) =
      fill capacity size (current ++ [item]) items := by
  rw [fill, if_neg]
  rintro ⟨hcurrent, hfull⟩
  rcases hfits with hempty | hfits
  · exact hcurrent hempty
  · omega

/-- A full bucket is closed by the next item, which begins a new one. -/
theorem fill_eq_cons_of_full {current : List α} {item : α} {items : List α}
    (hcurrent : current ≠ []) (hfull : capacity < total size current + size item) :
    fill capacity size current (item :: items) =
      current :: fill capacity size [] (item :: items) := by
  rw [fill_cons_of_full hcurrent hfull, fill_cons_of_fits (.inl rfl), List.nil_append]

/-- An item larger than a bucket has one to itself. -/
theorem fill_cons_of_large {item : α} {items : List α} (hlarge : capacity < size item) :
    fill capacity size [] (item :: items) = [item] :: fill capacity size [] items := by
  rw [fill_cons_of_fits (.inl rfl), List.nil_append]
  cases items with
  | nil => simp [fill_nil]
  | cons next items =>
      rw [fill_eq_cons_of_full (by simp)]
      rw [total_singleton]
      exact Nat.lt_add_right _ hlarge

/-- The bucket that is being filled stays the beginning of the first bucket. -/
theorem fill_head {current : List α} (hcurrent : current ≠ []) (items : List α) :
    ∃ more rest, fill capacity size current items = (current ++ more) :: rest := by
  induction items generalizing current with
  | nil => exact ⟨[], [], by simp [fill_nil, hcurrent]⟩
  | cons item items ih =>
      by_cases hfull : capacity < total size current + size item
      · exact ⟨[], _, by rw [fill_cons_of_full hcurrent hfull, List.append_nil]⟩
      · rw [fill_cons_of_fits (.inr (not_lt.mp hfull))]
        obtain ⟨more, rest, heq⟩ := @ih (current ++ [item]) (by simp)
        exact ⟨item :: more, rest, by simp [heq]⟩

/-- Filling yields a division. -/
theorem division_fill {current : List α} (items : List α)
    (hfits : total size current ≤ capacity ∨ current.length = 1) :
    Division capacity size (current ++ items) (fill capacity size current items) := by
  induction items generalizing current with
  | nil =>
      rw [fill_nil]
      split
      next hempty => subst hempty; exact ⟨rfl, by simp, by simp, .nil⟩
      next hcurrent => exact ⟨by simp, by simpa, by simpa, .singleton _⟩
  | cons item items ih =>
      by_cases hfull : current ≠ [] ∧ capacity < total size current + size item
      · obtain ⟨hcurrent, hfull⟩ := hfull
        obtain ⟨hflatten, hnonempty, hall, hchain⟩ := @ih [item] (.inr rfl)
        obtain ⟨more, rest, heq⟩ := @fill_head α capacity size [item] (by simp) items
        rw [fill_cons_of_full hcurrent hfull]
        refine ⟨by simp [hflatten], ?_, ?_, ?_⟩
        · simpa [hcurrent] using hnonempty
        · simpa [hfits] using hall
        · rw [heq] at hchain ⊢
          exact .cons_cons (by simpa using hfull) hchain
      · have hnext : current = [] ∨ total size current + size item ≤ capacity := by
          by_contra hnot
          push Not at hnot
          exact hfull hnot
        rw [fill_cons_of_fits hnext]
        have hsplit := @ih (current ++ [item]) (by
          rcases hnext with rfl | hle
          · exact .inr rfl
          · exact .inl (by simpa using hle))
        simpa using hsplit

/-- Items that fit the bucket together are put into it. -/
theorem fill_append {current more : List α} (items : List α) (hcurrent : current ≠ [])
    (hfits : total size (current ++ more) ≤ capacity ∨ more = []) :
    fill capacity size current (more ++ items) =
      fill capacity size (current ++ more) items := by
  induction more generalizing current with
  | nil => simp
  | cons item more ih =>
      have hle : total size (current ++ item :: more) ≤ capacity := by simpa using hfits
      have hitem : total size current + size item ≤ capacity := by
        simp only [total_append, total_cons] at hle
        omega
      rw [List.cons_append, fill_cons_of_fits (.inr hitem), ih (by simp)
        (.inl (by simpa using hle))]
      simp

theorem fill_run {run : List α} (items : List α) (hrun : run ≠ [])
    (hfits : total size run ≤ capacity ∨ run.length = 1) :
    fill capacity size [] (run ++ items) = fill capacity size run items := by
  obtain ⟨first, more, rfl⟩ := List.exists_cons_of_ne_nil hrun
  rw [List.cons_append, fill_cons_of_fits (.inl rfl), List.nil_append,
    fill_append items (by simp)]
  · rfl
  · simpa using hfits

/-- There is one division. -/
theorem Division.eq_fill {items : List α} {runs : List (List α)}
    (hdivision : Division capacity size items runs) :
    runs = fill capacity size [] items := by
  obtain ⟨rfl, hnonempty, hfits, hchain⟩ := hdivision
  induction runs with
  | nil => simp [fill_nil]
  | cons run rest ih =>
      have hrest := ih (fun other hother => hnonempty other (by simp [hother]))
        (fun other hother => hfits other (by simp [hother])) hchain.of_cons
      have hrun := hnonempty run (by simp)
      rw [List.flatten_cons, fill_run _ hrun (hfits run (by simp))]
      cases rest with
      | nil => simp [fill_nil, hrun]
      | cons next rest =>
          obtain ⟨first, more, rfl⟩ :=
            List.exists_cons_of_ne_nil (hnonempty next (by simp))
          have hfull : capacity < total size run + size first := by
            cases hchain with
            | cons_cons hmaximal _ => exact hmaximal first (by simp)
          rw [List.flatten_cons, List.cons_append] at hrest ⊢
          rw [fill_cons_of_full hrun hfull, ← List.nil_append [first],
            ← fill_cons_of_fits (.inl rfl), ← hrest]

theorem division_iff {items : List α} {runs : List (List α)} :
    Division capacity size items runs ↔ runs = fill capacity size [] items := by
  constructor
  · exact Division.eq_fill
  · rintro rfl
    have hempty : total size ([] : List α) ≤ capacity := Nat.zero_le capacity
    exact division_fill items (.inl hempty)

/-- Filling neither drops nor reorders items. -/
theorem flatten_fill (items : List α) : (fill capacity size [] items).flatten = items :=
  (division_iff.mpr rfl).flatten

/-! ## Where items start -/

@[simp]
theorem starts_nil (start : ℕ) : starts size start [] = [] := rfl

@[simp]
theorem starts_cons (start : ℕ) (item : α) (items : List α) :
    starts size start (item :: items) =
      (item, start) :: starts size (start + size item) items := rfl

theorem starts_append (start : ℕ) (first second : List α) :
    starts size start (first ++ second) =
      starts size start first ++ starts size (start + total size first) second := by
  induction first generalizing start with
  | nil => simp
  | cons item first ih =>
      rw [List.cons_append, starts_cons, ih, starts_cons, total_cons, Nat.add_assoc,
        List.cons_append]

@[simp]
theorem map_fst_starts (start : ℕ) (items : List α) :
    (starts size start items).map Prod.fst = items := by
  induction items generalizing start with
  | nil => rfl
  | cons item items ih => simp [ih]

private theorem mem_starts {start place : ℕ} {item : α} {items : List α} :
    (item, place) ∈ starts size start items ↔
      ∃ before after, items = before ++ item :: after ∧
        place = start + total size before := by
  induction items generalizing start with
  | nil => simp
  | cons first items ih =>
      rw [starts_cons, List.mem_cons, ih]
      constructor
      · rintro (heq | ⟨before, after, rfl, rfl⟩)
        · obtain ⟨rfl, rfl⟩ := Prod.mk.inj heq
          exact ⟨[], items, rfl, by simp⟩
        · exact ⟨first :: before, after, rfl, by simp [Nat.add_assoc]⟩
      · rintro ⟨before, after, heq, rfl⟩
        cases before with
        | nil =>
            obtain ⟨rfl, rfl⟩ := List.cons.inj heq
            exact .inl (by simp)
        | cons head before =>
            obtain ⟨rfl, rfl⟩ := List.cons.inj heq
            exact .inr ⟨before, after, rfl, by simp [Nat.add_assoc]⟩

theorem startsAt_iff_mem {runs : List (List α)} {start : ℕ} {item : α} :
    StartsAt size runs start item ↔ (item, start) ∈ runs.flatMap (starts size 0) := by
  simp only [StartsAt, List.mem_flatMap, mem_starts, Nat.zero_add]

/-! ## Buckets of images -/

section Map

variable {β : Type} (f : β → α)

private theorem total_map (items : List β) :
    total size (items.map f) = total (fun item => size (f item)) items := by
  simp [total, Function.comp_def]

/-- Only the sizes decide how items are divided. -/
theorem fill_map (current items : List β) :
    fill capacity size (current.map f) (items.map f) =
      (fill capacity (fun item => size (f item)) current items).map (List.map f) := by
  induction items generalizing current with
  | nil =>
      by_cases hempty : current = [] <;> simp [fill_nil, hempty]
  | cons item items ih =>
      rw [List.map_cons, fill, fill, total_map]
      simp only [ne_eq, List.map_eq_nil_iff]
      split
      · rw [List.map_cons, ← ih]
        rfl
      · rw [← ih, List.map_append]
        rfl

theorem starts_map (start : ℕ) (items : List β) :
    starts size start (items.map f) =
      (starts (fun item => size (f item)) start items).map fun placed =>
        (f placed.1, placed.2) := by
  induction items generalizing start with
  | nil => rfl
  | cons item items ih => simp [ih]

end Map

end OneShotOPD.FirstFit
