import Mathlib.Data.List.Basic
import Mathlib.Tactic.Common

/-!
# Sequences of checks

Validation code is a sequence of conditions that each raise.  The two
combinators below are the shapes it takes, a single check and a check made on
every element of a list, with the lemmas that read the passed conditions off a
successful run.
-/

namespace OneShotOPD.Checks

variable {ε α β : Type}

/-- `if bad: raise error`. -/
def raiseIf (bad : Prop) [Decidable bad] (error : ε) : Except ε Unit :=
  if bad then .error error else .ok ()

@[simp]
theorem raiseIf_eq_ok {bad : Prop} [Decidable bad] {error : ε} :
    raiseIf bad error = .ok () ↔ ¬ bad := by
  by_cases hbad : bad <;> simp [raiseIf, hbad]

/-- `for item in items: if bad item: raise error item`. -/
def raiseIfAny (items : List α) (bad : α → Prop) [DecidablePred bad]
    (error : α → ε) : Except ε Unit :=
  match items with
  | [] => .ok ()
  | item :: items =>
      if bad item then .error (error item) else raiseIfAny items bad error

@[simp]
theorem raiseIfAny_eq_ok {items : List α} {bad : α → Prop}
    [DecidablePred bad] {error : α → ε} :
    raiseIfAny items bad error = .ok () ↔ ∀ item ∈ items, ¬ bad item := by
  induction items with
  | nil => simp [raiseIfAny]
  | cons item items ih =>
      by_cases hbad : bad item <;> simp [raiseIfAny, hbad, ih]

theorem bind_eq_ok {first : Except ε α} {next : α → Except ε β} {value : β} :
    (first >>= next) = .ok value ↔
      ∃ middle, first = .ok middle ∧ next middle = .ok value := by
  cases first <;> simp [bind, Except.bind]

theorem map_eq_ok {f : α → β} {result : Except ε α} {value : β} :
    result.map f = .ok value ↔ ∃ item, result = .ok item ∧ f item = value := by
  cases result <;> simp [Except.map]

theorem map_isOk_iff {f : α → β} {result : Except ε α} :
    (∃ value, result.map f = .ok value) ↔ ∃ value, result = .ok value := by
  cases result <;> simp [Except.map]

theorem bind_pure_isOk_iff {f : α → β} {result : Except ε α} :
    (∃ value, (result >>= fun item => (.ok (f item) : Except ε β)) = .ok value) ↔
      ∃ value, result = .ok value := by
  cases result <;> simp [bind, Except.bind]

/-- A sequence of checks succeeds when the first one passes and the rest
does. -/
@[simp]
theorem raiseIf_bind_eq_ok {bad : Prop} [Decidable bad] {error : ε}
    {next : Unit → Except ε β} {value : β} :
    (raiseIf bad error >>= next) = .ok value ↔ ¬ bad ∧ next () = .ok value := by
  by_cases hbad : bad <;> simp [raiseIf, hbad, bind, Except.bind]

@[simp]
theorem raiseIfAny_bind_eq_ok {items : List α} {bad : α → Prop}
    [DecidablePred bad] {error : α → ε} {next : Unit → Except ε β} {value : β} :
    (raiseIfAny items bad error >>= next) = .ok value ↔
      (∀ item ∈ items, ¬ bad item) ∧ next () = .ok value := by
  constructor
  · intro hok
    obtain ⟨_, hchecks, hnext⟩ := bind_eq_ok.mp hok
    exact ⟨raiseIfAny_eq_ok.mp hchecks, hnext⟩
  · rintro ⟨hchecks, hnext⟩
    exact bind_eq_ok.mpr ⟨(), raiseIfAny_eq_ok.mpr hchecks, hnext⟩

/-- Elements of a list that is computed element by element come from elements
of the source list. -/
theorem exists_of_mem_mapM {items : List α} {f : α → Except ε β}
    {values : List β} (hok : items.mapM f = .ok values) {value : β}
    (hvalue : value ∈ values) : ∃ item ∈ items, f item = .ok value := by
  induction items generalizing values with
  | nil =>
      cases hok
      simp at hvalue
  | cons item items ih =>
      rw [List.mapM_cons] at hok
      obtain ⟨head, hhead, hok⟩ := bind_eq_ok.mp hok
      obtain ⟨tail, htail, hok⟩ := bind_eq_ok.mp hok
      cases hok
      rcases List.mem_cons.mp hvalue with rfl | hmem
      · exact ⟨item, by simp, hhead⟩
      · obtain ⟨source, hsource, hf⟩ := ih htail hmem
        exact ⟨source, by simp [hsource], hf⟩

theorem length_of_mapM {items : List α} {f : α → Except ε β} {values : List β}
    (hok : items.mapM f = .ok values) : values.length = items.length := by
  induction items generalizing values with
  | nil =>
      cases hok
      rfl
  | cons item items ih =>
      rw [List.mapM_cons] at hok
      obtain ⟨head, _, hok⟩ := bind_eq_ok.mp hok
      obtain ⟨tail, htail, hok⟩ := bind_eq_ok.mp hok
      cases hok
      simp [ih htail]

theorem eq_ok_of_mapM {items : List α} {f : α → Except ε β} {values : List β}
    (hok : items.mapM f = .ok values) {item : α} (hitem : item ∈ items) :
    ∃ value, f item = .ok value := by
  induction items generalizing values with
  | nil => simp at hitem
  | cons first items ih =>
      rw [List.mapM_cons] at hok
      obtain ⟨head, hhead, hok⟩ := bind_eq_ok.mp hok
      obtain ⟨tail, htail, hok⟩ := bind_eq_ok.mp hok
      rcases List.mem_cons.mp hitem with rfl | hmem
      · exact ⟨head, hhead⟩
      · exact ih htail hmem

theorem exists_mapM_eq_ok {items : List α} {f : α → Except ε β}
    (hok : ∀ item ∈ items, ∃ value, f item = .ok value) :
    ∃ values, items.mapM f = .ok values := by
  induction items with
  | nil => exact ⟨[], rfl⟩
  | cons item items ih =>
      obtain ⟨head, hhead⟩ := hok item (by simp)
      obtain ⟨tail, htail⟩ := ih fun other hother => hok other (by simp [hother])
      exact ⟨head :: tail, by rw [List.mapM_cons, hhead, htail]; rfl⟩

/-- The values of a list that is computed element by element. -/
theorem eq_map_of_mapM {items : List α} {f : α → Except ε β} {g : α → β}
    {values : List β} (hvalue : ∀ item ∈ items, ∀ value, f item = .ok value → value = g item)
    (hok : items.mapM f = .ok values) : values = items.map g := by
  induction items generalizing values with
  | nil =>
      cases hok
      rfl
  | cons item items ih =>
      rw [List.mapM_cons] at hok
      obtain ⟨head, hhead, hok⟩ := bind_eq_ok.mp hok
      obtain ⟨tail, htail, hok⟩ := bind_eq_ok.mp hok
      cases hok
      rw [List.map_cons, hvalue item List.mem_cons_self head hhead,
        ih (fun other hother => hvalue other (List.mem_cons_of_mem _ hother)) htail]

theorem getElem_of_mapM {items : List α} {f : α → Except ε β} {values : List β}
    (hok : items.mapM f = .ok values) {index : ℕ} (hindex : index < items.length)
    (hvalues : index < values.length) : f items[index] = .ok values[index] := by
  induction items generalizing values index with
  | nil => simp at hindex
  | cons item items ih =>
      rw [List.mapM_cons] at hok
      obtain ⟨head, hhead, hok⟩ := bind_eq_ok.mp hok
      obtain ⟨tail, htail, hok⟩ := bind_eq_ok.mp hok
      cases hok
      cases index with
      | zero => exact hhead
      | succ index => exact ih htail (by simpa using hindex) (by simpa using hvalues)

theorem mapM_congr {items : List α} {f g : α → Except ε β}
    (heq : ∀ item ∈ items, f item = g item) : items.mapM f = items.mapM g := by
  induction items with
  | nil => rfl
  | cons item items ih =>
      rw [List.mapM_cons, List.mapM_cons, heq item List.mem_cons_self,
        ih fun other hother => heq other (List.mem_cons_of_mem _ hother)]

/-- What every call keeps is kept in order. -/
theorem map_eq_of_mapM {γ : Type*} {items : List α} {f : α → Except ε β} {values : List β}
    {g : α → γ} {h : β → γ}
    (hkeep : ∀ item ∈ items, ∀ value, f item = .ok value → h value = g item)
    (hok : items.mapM f = .ok values) : values.map h = items.map g := by
  induction items generalizing values with
  | nil =>
      cases hok
      rfl
  | cons item items ih =>
      rw [List.mapM_cons] at hok
      obtain ⟨value, hhead, hok⟩ := bind_eq_ok.mp hok
      obtain ⟨others, htail, hok⟩ := bind_eq_ok.mp hok
      cases hok
      rw [List.map_cons, List.map_cons, hkeep item List.mem_cons_self value hhead,
        ih (fun other hother => hkeep other (List.mem_cons_of_mem _ hother)) htail]

theorem flatMap_eq_of_mapM {γ : Type*} {items : List α} {f : α → Except ε β} {values : List β}
    {g : α → List γ} {h : β → List γ}
    (hkeep : ∀ item ∈ items, ∀ value, f item = .ok value → h value = g item)
    (hok : items.mapM f = .ok values) : values.flatMap h = items.flatMap g := by
  rw [List.flatMap_def, List.flatMap_def, map_eq_of_mapM hkeep hok]

theorem mapM_isOk_iff {items : List α} {f : α → Except ε β} :
    (∃ values, items.mapM f = .ok values) ↔ ∀ item ∈ items, ∃ value, f item = .ok value :=
  ⟨fun ⟨_, hok⟩ _ hitem => eq_ok_of_mapM hok hitem, exists_mapM_eq_ok⟩

/-- Calls that are undone one by one are undone together. -/
theorem mapM_undo {items : List α} {f : α → Except ε β} {g : β → Except ε α}
    (hundo : ∀ item ∈ items, ∃ value, f item = .ok value ∧ g value = .ok item) :
    ∃ values, items.mapM f = .ok values ∧ values.mapM g = .ok items := by
  induction items with
  | nil => exact ⟨[], rfl, rfl⟩
  | cons item items ih =>
      obtain ⟨value, hvalue, hitem⟩ := hundo item List.mem_cons_self
      obtain ⟨values, hvalues, hitems⟩ := ih fun other hother =>
        hundo other (List.mem_cons_of_mem _ hother)
      refine ⟨value :: values, ?_, ?_⟩
      · rw [List.mapM_cons, hvalue, hvalues]
        rfl
      · rw [List.mapM_cons, hitem, hitems]
        rfl

/-- Calls on other items, each with the corresponding value. -/
theorem mapM_map_eq_ok {items : List α} {f : α → Except ε β} {values : List β} (g : α → α)
    (h : β → β) (hvalue : ∀ item ∈ items, ∀ value, f item = .ok value →
      f (g item) = .ok (h value))
    (hok : items.mapM f = .ok values) : (items.map g).mapM f = .ok (values.map h) := by
  induction items generalizing values with
  | nil =>
      cases hok
      rfl
  | cons item items ih =>
      rw [List.mapM_cons] at hok
      obtain ⟨value, hhead, hok⟩ := bind_eq_ok.mp hok
      obtain ⟨others, htail, hok⟩ := bind_eq_ok.mp hok
      cases hok
      rw [List.map_cons, List.mapM_cons, hvalue item List.mem_cons_self value hhead,
        ih (fun other hother => hvalue other (List.mem_cons_of_mem _ hother)) htail]
      rfl

/-- When every element has its value, the list has the list of these values. -/
theorem mapM_eq_ok_map {items : List α} {f : α → Except ε β} {g : α → β}
    (hok : ∀ item ∈ items, f item = .ok (g item)) : items.mapM f = .ok (items.map g) := by
  induction items with
  | nil => rfl
  | cons item items ih =>
      rw [List.mapM_cons, hok item List.mem_cons_self,
        ih fun other hother => hok other (List.mem_cons_of_mem _ hother)]
      rfl

/-- What every step of a loop keeps holds of its result. -/
theorem foldlM_invariant {step : β → α → Except ε β} (invariant : β → Prop)
    (hstep : ∀ state item next, invariant state → step state item = .ok next →
      invariant next) {items : List α} {start result : β} (hstart : invariant start)
    (hok : items.foldlM step start = .ok result) : invariant result := by
  induction items generalizing start with
  | nil =>
      cases hok
      exact hstart
  | cons item items ih =>
      rw [List.foldlM_cons] at hok
      obtain ⟨next, hnext, hok⟩ := bind_eq_ok.mp hok
      exact ih (hstep start item next hstart hnext) hok

/-- A loop over `range(count)` whose states are known. -/
theorem foldlM_range {step : β → ℕ → Except ε β} (state : ℕ → β) {count : ℕ}
    (hstep : ∀ index < count, step (state index) index = .ok (state (index + 1))) :
    (List.range count).foldlM step (state 0) = .ok (state count) := by
  induction count with
  | zero => rfl
  | succ count ih =>
      rw [List.range_succ, List.foldlM_append,
        ih fun index hindex => hstep index (Nat.lt_succ_of_lt hindex)]
      simp only [bind, Except.bind, List.foldlM_cons, List.foldlM_nil,
        hstep count (Nat.lt_succ_self count), pure, Except.pure]

/-- A loop whose second component is only updated. -/
theorem foldlM_pair {γ : Type} {first : β → α → Except ε β} {second : γ → α → γ}
    {step : β × γ → α → Except ε (β × γ)} {items : List α}
    (hstep : ∀ item ∈ items, ∀ state : β × γ, step state item = do
      let next ← first state.1 item
      return (next, second state.2 item)) (state : β × γ) :
    items.foldlM step state = do
      let result ← items.foldlM first state.1
      return (result, items.foldl second state.2) := by
  induction items generalizing state with
  | nil => rfl
  | cons item items ih =>
      rw [List.foldlM_cons, List.foldlM_cons, hstep item List.mem_cons_self]
      cases first state.1 item with
      | error message => rfl
      | ok next => exact ih (fun other hother => hstep other (List.mem_cons_of_mem _ hother)) _

end OneShotOPD.Checks
