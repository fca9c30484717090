import OneShotOPD.Core.Checks
import Mathlib.Data.List.Nodup
import Mathlib.Data.List.Basic
import Mathlib.Data.List.Induction
import Mathlib.Tactic.Common

/-!
# Insertion-ordered dictionaries

An association list without repeated keys.  Assigning to a key that is present
replaces its value in place, assigning to a new key appends, so iteration
follows first insertion.
-/

namespace OneShotOPD

variable {κ ν : Type}

/-- A finite map that remembers the order in which its keys were first set. -/
@[ext]
structure Dict (κ ν : Type) where
  entries : List (κ × ν)
  nodup_keys : (entries.map Prod.fst).Nodup

namespace Dict

def empty : Dict κ ν := ⟨[], List.nodup_nil⟩

def keys (dict : Dict κ ν) : List κ := dict.entries.map Prod.fst

theorem keys_nodup (dict : Dict κ ν) : dict.keys.Nodup := dict.nodup_keys

@[simp]
theorem keys_empty : (empty : Dict κ ν).keys = [] := rfl

/-- The dictionary with every value replaced. -/
def map {μ : Type} (f : ν → μ) (dict : Dict κ ν) : Dict κ μ where
  entries := dict.entries.map fun entry => (entry.1, f entry.2)
  nodup_keys := by
    have hkeys : (dict.entries.map fun entry => (entry.1, f entry.2)).map Prod.fst =
        dict.entries.map Prod.fst := by simp
    rw [hkeys]
    exact dict.nodup_keys

theorem entries_map {μ : Type} (f : ν → μ) (dict : Dict κ ν) :
    (dict.map f).entries = dict.entries.map fun entry => (entry.1, f entry.2) := rfl

@[simp]
theorem keys_map {μ : Type} (f : ν → μ) (dict : Dict κ ν) :
    (dict.map f).keys = dict.keys := by
  simp [map, keys]

/-- The dictionary with every value replaced by one that may depend on its key. -/
def mapWithKey {μ : Type} (f : κ → ν → μ) (dict : Dict κ ν) : Dict κ μ where
  entries := dict.entries.map fun entry => (entry.1, f entry.1 entry.2)
  nodup_keys := by
    have hkeys : (dict.entries.map fun entry => (entry.1, f entry.1 entry.2)).map Prod.fst =
        dict.entries.map Prod.fst := by simp
    rw [hkeys]
    exact dict.nodup_keys

theorem entries_mapWithKey {μ : Type} (f : κ → ν → μ) (dict : Dict κ ν) :
    (dict.mapWithKey f).entries =
      dict.entries.map fun entry => (entry.1, f entry.1 entry.2) := rfl

@[simp]
theorem keys_mapWithKey {μ : Type} (f : κ → ν → μ) (dict : Dict κ ν) :
    (dict.mapWithKey f).keys = dict.keys := by
  simp [mapWithKey, keys]

/-- The dictionary without the keys that fail a test. -/
def filter (keep : κ → Prop) [DecidablePred keep] (dict : Dict κ ν) : Dict κ ν where
  entries := dict.entries.filter fun entry => keep entry.1
  nodup_keys := dict.nodup_keys.sublist (List.filter_sublist.map Prod.fst)

@[simp]
theorem mem_entries_filter {keep : κ → Prop} [DecidablePred keep] {dict : Dict κ ν}
    {entry : κ × ν} :
    entry ∈ (dict.filter keep).entries ↔ entry ∈ dict.entries ∧ keep entry.1 := by
  simp [filter]

theorem filter_eq_self {keep : κ → Prop} [DecidablePred keep] {dict : Dict κ ν}
    (hkeep : ∀ key ∈ dict.keys, keep key) : dict.filter keep = dict := by
  apply Dict.ext
  refine List.filter_eq_self.mpr fun entry hentry => ?_
  simpa using hkeep entry.1 (List.mem_map_of_mem hentry)

@[simp]
theorem mem_keys_filter {keep : κ → Prop} [DecidablePred keep] {dict : Dict κ ν} {key : κ} :
    key ∈ (dict.filter keep).keys ↔ key ∈ dict.keys ∧ keep key := by
  simp only [keys, List.mem_map, mem_entries_filter]
  constructor
  · rintro ⟨entry, ⟨hentry, hkeep⟩, rfl⟩
    exact ⟨⟨entry, hentry, rfl⟩, hkeep⟩
  · rintro ⟨⟨entry, hentry, rfl⟩, hkeep⟩
    exact ⟨entry, ⟨hentry, hkeep⟩, rfl⟩

theorem filter_map {μ : Type} (keep : κ → Prop) [DecidablePred keep] (f : ν → μ)
    (dict : Dict κ ν) : (dict.map f).filter keep = (dict.filter keep).map f := by
  apply Dict.ext
  simp only [filter, entries_map, List.filter_map]
  rfl

/-- An entry is determined by its key. -/
theorem eq_of_mem_entries {dict : Dict κ ν} {key : κ} {value other : ν}
    (hvalue : (key, value) ∈ dict.entries) (hother : (key, other) ∈ dict.entries) :
    value = other := by
  have hinj := List.inj_on_of_nodup_map dict.nodup_keys hvalue hother rfl
  exact (Prod.mk.inj hinj).2

variable [DecidableEq κ]

def get? (dict : Dict κ ν) (key : κ) : Option ν := dict.entries.lookup key

def getD (dict : Dict κ ν) (key : κ) (default : ν) : ν :=
  (dict.get? key).getD default

private theorem replaced_keys (entries : List (κ × ν)) (key : κ) (value : ν) :
    (entries.map fun entry => if entry.1 = key then (key, value) else entry).map
      Prod.fst = entries.map Prod.fst := by
  rw [List.map_map]
  refine List.map_congr_left fun entry _ => ?_
  by_cases hkey : entry.1 = key <;> simp [hkey]

/-- `dict[key] = value`. -/
def insert (dict : Dict κ ν) (key : κ) (value : ν) : Dict κ ν :=
  if hkey : key ∈ dict.keys then
    ⟨dict.entries.map fun entry => if entry.1 = key then (key, value) else entry,
      by rw [replaced_keys]; exact dict.nodup_keys⟩
  else
    ⟨dict.entries ++ [(key, value)], by
      rw [List.map_append, List.map_singleton, ← List.concat_eq_append]
      exact List.Nodup.concat hkey dict.nodup_keys⟩

/-- A dictionary comprehension: later pairs overwrite earlier ones. -/
def ofList (pairs : List (κ × ν)) : Dict κ ν :=
  pairs.foldl (fun dict pair => dict.insert pair.1 pair.2) empty

@[simp]
theorem get?_empty (key : κ) : (empty : Dict κ ν).get? key = none := rfl

private theorem lookup_isSome_iff (entries : List (κ × ν)) (key : κ) :
    (entries.lookup key).isSome ↔ key ∈ entries.map Prod.fst := by
  induction entries with
  | nil => simp
  | cons entry entries ih =>
      obtain ⟨first, value⟩ := entry
      by_cases hkey : key = first
      · simp [hkey]
      · have hbeq : (key == first) = false := by simpa using hkey
        simp [List.lookup_cons, hbeq, hkey, ih]

theorem get?_isSome_iff (dict : Dict κ ν) (key : κ) :
    (dict.get? key).isSome ↔ key ∈ dict.keys :=
  lookup_isSome_iff dict.entries key

theorem get?_eq_none_iff (dict : Dict κ ν) (key : κ) :
    dict.get? key = none ↔ key ∉ dict.keys := by
  rw [← get?_isSome_iff, Option.not_isSome_iff_eq_none]

/-- The entries of a dictionary are the answers it gives. -/
theorem get?_eq_some_iff (dict : Dict κ ν) (key : κ) (value : ν) :
    dict.get? key = some value ↔ (key, value) ∈ dict.entries := by
  obtain ⟨entries, hnodup⟩ := dict
  simp only [get?]
  induction entries with
  | nil => simp
  | cons entry entries ih =>
      obtain ⟨first, old⟩ := entry
      rw [List.map_cons, List.nodup_cons] at hnodup
      by_cases hkey : key = first
      · subst hkey
        have habsent : (key, value) ∉ entries := fun hmem =>
          hnodup.1 (List.mem_map.mpr ⟨_, hmem, rfl⟩)
        simp [habsent, eq_comm]
      · have hbeq : (key == first) = false := by simpa using hkey
        simp [List.lookup_cons, hbeq, hkey, ih hnodup.2]

private theorem lookup_replaced (entries : List (κ × ν)) (key other : κ)
    (value : ν) :
    (entries.map fun entry => if entry.1 = key then (key, value) else entry).lookup
        other =
      if other = key then (entries.lookup key).map fun _ => value
      else entries.lookup other := by
  induction entries with
  | nil => simp
  | cons entry entries ih =>
      obtain ⟨first, old⟩ := entry
      by_cases hfirst : first = key
      · subst hfirst
        by_cases hother : other = first
        · simp [hother]
        · have hbeq : (other == first) = false := by simpa using hother
          simp only [List.map_cons, if_true, List.lookup_cons, hbeq, ih, hother,
            if_false]
      · have hbeq : (key == first) = false := by
          simpa using fun h => hfirst h.symm
        by_cases hother : other = first
        · simp [hother, hfirst]
        · have hbeq' : (other == first) = false := by simpa using hother
          simp only [List.map_cons, hfirst, if_false, List.lookup_cons, hbeq,
            hbeq', ih]

theorem get?_insert (dict : Dict κ ν) (key other : κ) (value : ν) :
    (dict.insert key value).get? other =
      if other = key then some value else dict.get? other := by
  unfold insert
  split
  next hkey =>
    simp only [get?, lookup_replaced]
    have hsome := (get?_isSome_iff dict key).mpr hkey
    obtain ⟨found, hfound⟩ := Option.isSome_iff_exists.mp hsome
    have hlookup : dict.entries.lookup key = some found := hfound
    simp [hlookup]
  next hkey =>
    simp only [get?, List.lookup_append]
    by_cases hother : other = key
    · subst hother
      have hnone := (get?_eq_none_iff dict other).mpr hkey
      have hlookup : dict.entries.lookup other = none := hnone
      simp [hlookup]
    · have hbeq : (other == key) = false := by simpa using hother
      simp [List.lookup_cons, hbeq, hother]

@[simp]
theorem get?_insert_self (dict : Dict κ ν) (key : κ) (value : ν) :
    (dict.insert key value).get? key = some value := by
  simp [get?_insert]

theorem get?_insert_of_ne (dict : Dict κ ν) {key other : κ} (value : ν)
    (hne : other ≠ key) :
    (dict.insert key value).get? other = dict.get? other := by
  simp [get?_insert, hne]

theorem keys_insert_of_mem (dict : Dict κ ν) {key : κ} (value : ν)
    (hkey : key ∈ dict.keys) : (dict.insert key value).keys = dict.keys := by
  unfold insert
  rw [dif_pos hkey]
  exact replaced_keys _ _ _

theorem entries_insert_of_mem (dict : Dict κ ν) {key : κ} (value : ν)
    (hkey : key ∈ dict.keys) :
    (dict.insert key value).entries =
      dict.entries.map fun entry => if entry.1 = key then (key, value) else entry := by
  rw [insert, dif_pos hkey]

theorem entries_insert_of_not_mem (dict : Dict κ ν) {key : κ} (value : ν)
    (hkey : key ∉ dict.keys) :
    (dict.insert key value).entries = dict.entries ++ [(key, value)] := by
  simp [insert, hkey]

theorem mem_keys_insert (dict : Dict κ ν) (key other : κ) (value : ν) :
    other ∈ (dict.insert key value).keys ↔ other = key ∨ other ∈ dict.keys := by
  rw [← get?_isSome_iff, get?_insert, ← get?_isSome_iff]
  by_cases hother : other = key <;> simp [hother]

/-- After an assignment the entries are the new one and old ones. -/
theorem mem_entries_insert {dict : Dict κ ν} {key : κ} {value : ν} {entry : κ × ν}
    (hentry : entry ∈ (dict.insert key value).entries) :
    entry = (key, value) ∨ entry ∈ dict.entries := by
  obtain ⟨other, found⟩ := entry
  have hfound := (get?_eq_some_iff _ _ _).mpr hentry
  rw [get?_insert] at hfound
  split at hfound
  next hkey =>
    obtain rfl := Option.some.inj hfound
    exact .inl (by rw [hkey])
  next => exact .inr ((get?_eq_some_iff _ _ _).mp hfound)

/-- Of two assignments to a key the later one stays. -/
theorem insert_insert (dict : Dict κ ν) (key : κ) (old value : ν) :
    (dict.insert key old).insert key value = dict.insert key value := by
  apply Dict.ext
  have hmem : key ∈ (dict.insert key old).keys := (mem_keys_insert _ _ _ _).mpr (.inl rfl)
  rw [entries_insert_of_mem _ _ hmem]
  by_cases hkey : key ∈ dict.keys
  · rw [entries_insert_of_mem _ _ hkey, entries_insert_of_mem _ _ hkey, List.map_map]
    refine List.map_congr_left fun entry _ => ?_
    by_cases heq : entry.1 = key <;> simp [heq]
  · rw [entries_insert_of_not_mem _ _ hkey, entries_insert_of_not_mem _ _ hkey,
      List.map_append, List.map_singleton, if_pos rfl]
    congr 1
    conv_rhs => rw [← List.map_id dict.entries]
    refine List.map_congr_left fun entry hentry => ?_
    have hne : entry.1 ≠ key := fun heq => hkey (heq ▸ List.mem_map_of_mem hentry)
    rw [if_neg hne]
    rfl

/-- Assigning the value that a key has changes nothing. -/
theorem insert_eq_self {dict : Dict κ ν} {key : κ} {value : ν}
    (hvalue : dict.get? key = some value) : dict.insert key value = dict := by
  have hentry := (get?_eq_some_iff dict key value).mp hvalue
  apply Dict.ext
  rw [entries_insert_of_mem dict value (List.mem_map_of_mem hentry)]
  conv_rhs => rw [← List.map_id dict.entries]
  refine List.map_congr_left fun entry hmem => ?_
  split
  next hkey =>
    obtain ⟨other, found⟩ := entry
    obtain rfl : other = key := hkey
    rw [eq_of_mem_entries hentry hmem]
    rfl
  next => rfl

/-- The entries of a comprehension are among its pairs. -/
theorem mem_of_mem_entries_ofList {pairs : List (κ × ν)} {entry : κ × ν}
    (hentry : entry ∈ (ofList pairs).entries) : entry ∈ pairs := by
  induction pairs using List.reverseRecOn with
  | nil => cases hentry
  | append_singleton pairs last ih =>
      rw [ofList, List.foldl_append] at hentry
      rcases mem_entries_insert hentry with rfl | hentry
      · exact List.mem_append_right pairs List.mem_cons_self
      · exact List.mem_append_left _ (ih hentry)

/-- A comprehension without repeated keys has its pairs as entries. -/
theorem entries_ofList {pairs : List (κ × ν)} (hkeys : (pairs.map Prod.fst).Nodup) :
    (ofList pairs).entries = pairs := by
  induction pairs using List.reverseRecOn with
  | nil => rfl
  | append_singleton pairs last ih =>
      rw [List.map_append, List.map_singleton, List.nodup_append] at hkeys
      have hrest := ih hkeys.1
      have hnew : last.1 ∉ (ofList pairs).keys := by
        rw [keys, hrest]
        exact fun hmem => hkeys.2.2 _ hmem _ List.mem_cons_self rfl
      rw [ofList, List.foldl_append, List.foldl_cons, List.foldl_nil]
      change ((ofList pairs).insert last.1 last.2).entries = _
      rw [entries_insert_of_not_mem _ _ hnew, hrest]

@[simp]
theorem ofList_entries (dict : Dict κ ν) : ofList dict.entries = dict :=
  Dict.ext (entries_ofList dict.nodup_keys)

section Selected

variable {ι : Type} {items : List ι} {keyOf : ι → κ} {value : ι → Option ν}

/-- The items that have a value, under their keys. -/
theorem entries_ofList_filterMap (hitems : items.Nodup)
    (hkeys : ∀ {first second}, keyOf first = keyOf second → first = second) :
    (ofList (items.filterMap fun item => (value item).map fun found =>
    (keyOf item, found))).entries =
      items.filterMap fun item => (value item).map fun found => (keyOf item, found) := by
  refine entries_ofList ?_
  rw [List.map_filterMap]
  refine hitems.filterMap fun first second key hfirst hsecond => hkeys ?_
  simp only [Option.map_map, Option.mem_def, Option.map_eq_some_iff] at hfirst hsecond
  obtain ⟨_, _, rfl⟩ := hfirst
  obtain ⟨_, _, hkey⟩ := hsecond
  exact hkey.symm

theorem get?_ofList_filterMap (hitems : items.Nodup)
    (hkeys : ∀ {first second}, keyOf first = keyOf second → first = second) {item : ι}
    (hitem : item ∈ items) :
    (ofList (items.filterMap fun item => (value item).map fun found => (keyOf item, found))).get?
      (keyOf item) = value item := by
  apply Option.ext
  intro found
  rw [get?_eq_some_iff, entries_ofList_filterMap hitems hkeys, List.mem_filterMap]
  constructor
  · rintro ⟨other, _, hother⟩
    obtain ⟨_, hvalue, heq⟩ := Option.map_eq_some_iff.mp hother
    obtain ⟨hkey, rfl⟩ := Prod.mk.inj heq
    rwa [← hkeys hkey]
  · intro hvalue
    exact ⟨item, hitem, by rw [hvalue]; rfl⟩

theorem get?_ofList_filterMap_eq_none (hitems : items.Nodup)
    (hkeys : ∀ {first second}, keyOf first = keyOf second → first = second) {key : κ}
    (hkey : ∀ item ∈ items, key ≠ keyOf item) :
    (ofList (items.filterMap fun item => (value item).map fun found => (keyOf item, found))).get?
      key = none := by
  refine Option.eq_none_iff_forall_ne_some.mpr fun found hfound => ?_
  rw [get?_eq_some_iff, entries_ofList_filterMap hitems hkeys, List.mem_filterMap] at hfound
  obtain ⟨other, hother, hvalue⟩ := hfound
  obtain ⟨_, _, heq⟩ := Option.map_eq_some_iff.mp hvalue
  exact hkey other hother (Prod.mk.inj heq).1.symm

end Selected

theorem entries_insert_ne_nil (dict : Dict κ ν) (key : κ) (value : ν) :
    (dict.insert key value).entries ≠ [] := by
  have hmem : key ∈ (dict.insert key value).keys :=
    (mem_keys_insert dict key key value).mpr (.inl rfl)
  intro hnil
  simp [keys, hnil] at hmem

theorem get?_filter (keep : κ → Prop) [DecidablePred keep] (dict : Dict κ ν) (key : κ) :
    (dict.filter keep).get? key = if keep key then dict.get? key else none := by
  apply Option.ext
  intro value
  rw [get?_eq_some_iff, mem_entries_filter]
  by_cases hkeep : keep key <;> simp [hkeep, get?_eq_some_iff]

theorem get?_foldl_insert (keys : List κ) (value : κ → ν) (dict : Dict κ ν) (key : κ) :
    (keys.foldl (fun dict key => dict.insert key (value key)) dict).get? key =
      if key ∈ keys then some (value key) else dict.get? key := by
  induction keys generalizing dict with
  | nil => simp
  | cons first keys ih =>
      rw [List.foldl_cons, ih, get?_insert]
      by_cases hkeys : key ∈ keys
      · simp [hkeys]
      · by_cases hfirst : key = first <;> simp [hkeys, hfirst]

/-- `dict.update(other)`. -/
theorem get?_foldl_insert_entries (dict other : Dict κ ν) (key : κ) :
    (other.entries.foldl (fun dict entry => dict.insert entry.1 entry.2) dict).get? key =
      (other.get? key).or (dict.get? key) := by
  obtain ⟨entries, hnodup⟩ := other
  dsimp only [get?]
  induction entries generalizing dict with
  | nil => rfl
  | cons entry entries ih =>
      obtain ⟨first, value⟩ := entry
      rw [List.map_cons, List.nodup_cons] at hnodup
      rw [List.foldl_cons]
      refine (ih _ hnodup.2).trans ?_
      change (entries.lookup key).or ((dict.insert first value).get? key) = _
      rw [get?_insert, List.lookup_cons]
      by_cases hkey : key = first
      · subst hkey
        have habsent : entries.lookup key = none := by
          rw [← Option.not_isSome_iff_eq_none, lookup_isSome_iff]
          exact hnodup.1
        simp [habsent]
      · have hbeq : (key == first) = false := by simpa using hkey
        simp [hbeq, hkey, get?]

/-- The entries of one dictionary merged into those of another, each with the old value of its
key. -/
theorem get?_foldl_update {ω : Type} (dict : Dict κ ν) (other : Dict κ ω)
    (update : κ → Option ν → ω → ν) (key : κ) :
    (other.entries.foldl
      (fun dict entry => dict.insert entry.1 (update entry.1 (dict.get? entry.1) entry.2))
      dict).get? key =
      match other.get? key with
      | some value => some (update key (dict.get? key) value)
      | none => dict.get? key := by
  obtain ⟨entries, hnodup⟩ := other
  dsimp only [get?]
  induction entries generalizing dict with
  | nil => rfl
  | cons entry entries ih =>
      obtain ⟨first, value⟩ := entry
      rw [List.map_cons, List.nodup_cons] at hnodup
      rw [List.foldl_cons]
      refine (ih _ hnodup.2).trans ?_
      rw [List.lookup_cons]
      by_cases hkey : key = first
      · subst hkey
        have habsent : entries.lookup key = none := by
          rw [← Option.not_isSome_iff_eq_none, lookup_isSome_iff]
          exact hnodup.1
        simp only [habsent, beq_self_eq_true]
        exact get?_insert_self _ _ _
      · have hbeq : (key == first) = false := by simpa using hkey
        have hget : ∀ inserted, (dict.insert first inserted).entries.lookup key =
            dict.entries.lookup key :=
          fun inserted => get?_insert_of_ne _ _ hkey
        simp only [hbeq, hget]

/-- The entries of one dictionary merged into those of another. -/
theorem get?_foldl_merge {ω : Type} (dict : Dict κ ν) (other : Dict κ ω) (default : ν)
    (merge : ν → ω → ν) (key : κ) :
    (other.entries.foldl
      (fun dict entry => dict.insert entry.1 (merge (dict.getD entry.1 default) entry.2))
      dict).get? key =
      match other.get? key with
      | some value => some (merge (dict.getD key default) value)
      | none => dict.get? key :=
  get?_foldl_update dict other (fun _ old value => merge (old.getD default) value) key

/-- A comprehension has exactly the keys of its pairs. -/
theorem mem_keys_ofList (pairs : List (κ × ν)) (key : κ) :
    key ∈ (ofList pairs).keys ↔ key ∈ pairs.map Prod.fst := by
  have hfold : ∀ (dict : Dict κ ν), key ∈
      (pairs.foldl (fun dict pair => dict.insert pair.1 pair.2) dict).keys ↔
        key ∈ dict.keys ∨ key ∈ pairs.map Prod.fst := by
    induction pairs with
    | nil => simp
    | cons pair pairs ih =>
        intro dict
        rw [List.foldl_cons, ih, mem_keys_insert, List.map_cons, List.mem_cons]
        tauto
  simpa [ofList] using hfold empty

theorem get?_map {μ : Type} (f : ν → μ) (dict : Dict κ ν) (key : κ) :
    (dict.map f).get? key = (dict.get? key).map f := by
  cases hget : dict.get? key with
  | none => simpa [get?_eq_none_iff] using hget
  | some value =>
      have hmem := (get?_eq_some_iff dict key value).mp hget
      exact (get?_eq_some_iff _ _ _).mpr (List.mem_map_of_mem hmem)

theorem get?_mapWithKey {μ : Type} (f : κ → ν → μ) (dict : Dict κ ν) (key : κ) :
    (dict.mapWithKey f).get? key = (dict.get? key).map (f key) := by
  cases hget : dict.get? key with
  | none => simpa [get?_eq_none_iff] using hget
  | some value =>
      have hmem := (get?_eq_some_iff dict key value).mp hget
      exact (get?_eq_some_iff _ _ _).mpr (List.mem_map_of_mem hmem)

theorem map_insert {μ : Type} (f : ν → μ) (dict : Dict κ ν) (key : κ) (value : ν) :
    (dict.insert key value).map f = (dict.map f).insert key (f value) := by
  apply Dict.ext
  by_cases hkey : key ∈ dict.keys
  · have hkey' : key ∈ (dict.map f).keys := by simpa using hkey
    rw [entries_map, entries_insert_of_mem _ _ hkey, entries_insert_of_mem _ _ hkey',
      entries_map, List.map_map, List.map_map]
    refine List.map_congr_left fun entry _ => ?_
    by_cases heq : entry.1 = key <;> simp [heq]
  · have hkey' : key ∉ (dict.map f).keys := by simpa using hkey
    rw [entries_map, entries_insert_of_not_mem _ _ hkey, entries_insert_of_not_mem _ _ hkey']
    simp [map]

/-- A `defaultdict(list)` filled pair by pair. -/
def collect (pairs : List (κ × ν)) : Dict κ (List ν) :=
  pairs.foldl
    (fun dict pair => dict.insert pair.1 (dict.getD pair.1 [] ++ [pair.2])) empty

theorem collect_append (pairs : List (κ × ν)) (key : κ) (value : ν) :
    collect (pairs ++ [(key, value)]) =
      (collect pairs).insert key ((collect pairs).getD key [] ++ [value]) := by
  simp [collect]

/-- Under each key stand its values, in the order of the pairs. -/
theorem getD_collect (pairs : List (κ × ν)) (key : κ) :
    (collect pairs).getD key [] =
      (pairs.filter fun pair => pair.1 = key).map Prod.snd := by
  induction pairs using List.reverseRecOn with
  | nil => simp [collect, getD]
  | append_singleton pairs last ih =>
      obtain ⟨first, value⟩ := last
      rw [collect_append, getD, get?_insert, List.filter_append, List.map_append, ← ih]
      by_cases hkey : key = first
      · subst hkey
        simp
      · simp [hkey, Ne.symm hkey, getD]

theorem mem_keys_collect (pairs : List (κ × ν)) (key : κ) :
    key ∈ (collect pairs).keys ↔ key ∈ pairs.map Prod.fst := by
  induction pairs using List.reverseRecOn with
  | nil => simp [collect]
  | append_singleton pairs last ih =>
      rw [collect_append, mem_keys_insert, ih, List.map_append, List.mem_append,
        List.map_singleton, List.mem_singleton]
      exact or_comm

theorem get?_collect (pairs : List (κ × ν)) (key : κ) :
    (collect pairs).get? key =
      if key ∈ pairs.map Prod.fst then some ((pairs.filter fun pair => pair.1 = key).map Prod.snd)
      else none := by
  split
  next hkey =>
    obtain ⟨values, hvalues⟩ := Option.isSome_iff_exists.mp
      ((get?_isSome_iff _ _).mpr ((mem_keys_collect pairs key).mpr hkey))
    have hgetD := getD_collect pairs key
    rw [getD, hvalues, Option.getD_some] at hgetD
    rw [hvalues, hgetD]
  next hkey =>
    rw [get?_eq_none_iff, mem_keys_collect]
    exact hkey

/-- A key that some pair has is found with the values of its pairs. -/
theorem get?_collect_of_ne_nil {pairs : List (κ × ν)} {key : κ}
    (hvalues : (pairs.filter fun pair => pair.1 = key).map Prod.snd ≠ []) :
    (collect pairs).get? key = some ((pairs.filter fun pair => pair.1 = key).map Prod.snd) := by
  rw [get?_collect, if_pos]
  obtain ⟨value, hvalue⟩ := List.exists_mem_of_ne_nil _ hvalues
  obtain ⟨pair, hpair, _⟩ := List.mem_map.mp hvalue
  have hkey := List.mem_filter.mp hpair
  exact List.mem_map.mpr ⟨pair, hkey.1, of_decide_eq_true hkey.2⟩

theorem get?_collect_of_eq_nil {pairs : List (κ × ν)} {key : κ}
    (hvalues : (pairs.filter fun pair => pair.1 = key).map Prod.snd = []) :
    (collect pairs).get? key = none := by
  rw [get?_collect, if_neg]
  intro hkey
  obtain ⟨pair, hpair, rfl⟩ := List.mem_map.mp hkey
  rw [List.map_eq_nil_iff, List.filter_eq_nil_iff] at hvalues
  exact hvalues pair hpair (by simp)

theorem collect_map {μ : Type} (f : ν → μ) (pairs : List (κ × ν)) :
    collect (pairs.map fun pair => (pair.1, f pair.2)) = (collect pairs).map (List.map f) := by
  induction pairs using List.reverseRecOn with
  | nil => rfl
  | append_singleton pairs last ih =>
      obtain ⟨key, value⟩ := last
      rw [List.map_append, List.map_singleton, collect_append, collect_append, map_insert, ih]
      congr 1
      rw [getD, get?_map, getD]
      cases (collect pairs).get? key <;> simp

/-- An assignment that appends to the list of a key adds one element to all the lists. -/
theorem flatMap_insert_append_perm (dict : Dict κ (List ν)) (key : κ) (value : ν) :
    ((dict.insert key (dict.getD key [] ++ [value])).entries.flatMap Prod.snd).Perm
      (dict.entries.flatMap Prod.snd ++ [value]) := by
  obtain ⟨entries, hnodup⟩ := dict
  by_cases hkey : key ∈ entries.map Prod.fst
  · rw [entries_insert_of_mem _ _ hkey]
    dsimp only [getD, get?]
    induction entries with
    | nil => exact absurd hkey List.not_mem_nil
    | cons entry entries ih =>
        obtain ⟨first, values⟩ := entry
        rw [List.map_cons, List.nodup_cons] at hnodup
        by_cases hfirst : first = key
        · subst hfirst
          have hrest : (entries.map fun entry => if entry.1 = first
              then (first, (List.lookup first ((first, values) :: entries)).getD [] ++ [value])
              else entry) = entries := by
            conv_rhs => rw [← List.map_id entries]
            refine List.map_congr_left fun entry hentry => ?_
            have hne : entry.1 ≠ first := fun heq =>
              hnodup.1 (List.mem_map.mpr ⟨entry, hentry, heq⟩)
            rw [if_neg hne]
            rfl
          rw [List.map_cons, hrest]
          simp only [if_true, List.flatMap_cons, List.lookup_cons_self, Option.getD_some,
            List.append_assoc]
          exact List.perm_append_comm.append_left values
        · have hmem : key ∈ entries.map Prod.fst := by
            rcases List.mem_cons.mp hkey with heq | hmem
            · exact absurd heq.symm hfirst
            · exact hmem
          have hbeq : (key == first) = false := by simpa using Ne.symm hfirst
          have hrest := ih hnodup.2 hmem
          simp only [List.map_cons, hfirst, if_false, List.flatMap_cons, List.lookup_cons, hbeq,
            List.append_assoc]
          exact hrest.append_left values
  · have hnone : List.lookup key entries = none :=
      (get?_eq_none_iff ⟨entries, hnodup⟩ key).mpr hkey
    rw [entries_insert_of_not_mem _ _ hkey]
    simp [getD, get?, hnone]

/-- Collecting loses and repeats nothing. -/
theorem flatMap_collect_perm (pairs : List (κ × ν)) :
    ((collect pairs).entries.flatMap Prod.snd).Perm (pairs.map Prod.snd) := by
  induction pairs using List.reverseRecOn with
  | nil => exact List.Perm.refl _
  | append_singleton pairs last ih =>
      obtain ⟨key, value⟩ := last
      rw [collect_append, List.map_append]
      exact (flatMap_insert_append_perm _ _ _).trans (ih.append_right _)

/-- The first pair of a comprehension stays when no later one has its key. -/
theorem get?_ofList_cons {key : κ} {value : ν} {pairs : List (κ × ν)}
    (hkey : key ∉ pairs.map Prod.fst) : (ofList ((key, value) :: pairs)).get? key = some value := by
  rw [ofList, List.foldl_cons]
  have hfold : ∀ dict : Dict κ ν, dict.get? key = some value →
      (pairs.foldl (fun dict pair => dict.insert pair.1 pair.2) dict).get? key = some value := by
    induction pairs with
    | nil => exact fun dict hdict => hdict
    | cons pair pairs ih =>
        intro dict hdict
        rw [List.map_cons, List.mem_cons, not_or] at hkey
        exact ih hkey.2 _ (by rw [get?_insert_of_ne _ _ hkey.1, hdict])
  exact hfold _ (get?_insert_self _ _ _)

/-- A key has at most one entry. -/
theorem filter_entries (dict : Dict κ ν) (key : κ) :
    (dict.entries.filter fun entry => entry.1 = key).map Prod.snd =
      (dict.get? key).toList := by
  obtain ⟨entries, hnodup⟩ := dict
  simp only [get?]
  induction entries with
  | nil => rfl
  | cons entry entries ih =>
      obtain ⟨first, value⟩ := entry
      rw [List.map_cons, List.nodup_cons] at hnodup
      by_cases hkey : first = key
      · subst hkey
        have hrest : entries.filter (fun entry => entry.1 = first) = [] := by
          rw [List.filter_eq_nil_iff]
          intro entry hentry
          simpa using fun heq : entry.1 = first =>
            hnodup.1 (List.mem_map.mpr ⟨entry, hentry, heq⟩)
        simp [hrest]
      · have hbeq : (key == first) = false := by simpa using Ne.symm hkey
        simpa [List.lookup_cons, hbeq, hkey] using ih hnodup.2

theorem flatMap_entries_of_key {μ : Type} (dict : Dict κ ν) (key : κ) (f : ν → List μ) :
    (dict.entries.flatMap fun entry => if entry.1 = key then f entry.2 else []) =
      (dict.get? key).toList.flatMap f := by
  rw [← filter_entries, List.flatMap_map]
  induction dict.entries with
  | nil => rfl
  | cons entry entries ih =>
      by_cases hkey : entry.1 = key <;> simp [hkey, ih]

omit [DecidableEq κ] in
theorem length_flatMap_toList_le {ρ : Type} (rows : List ρ) (value : ρ → Option ν) :
    (rows.flatMap fun row => (value row).toList).length ≤ rows.length := by
  induction rows with
  | nil => exact Nat.le_refl _
  | cons row rows ih =>
      rw [List.flatMap_cons, List.length_append, List.length_cons]
      have hone : (value row).toList.length ≤ 1 := by cases value row <;> simp
      omega

omit [DecidableEq κ] in
/-- The values of some options are all of them when no option is empty. -/
theorem map_some_flatMap_toList_iff {ρ : Type} {rows : List ρ} {value : ρ → Option ν} :
    (rows.flatMap fun row => (value row).toList).map some = rows.map value ↔
      ∀ row ∈ rows, (value row).isSome := by
  induction rows with
  | nil => simp
  | cons row rows ih =>
      rw [List.flatMap_cons, List.map_append, List.map_cons, List.forall_mem_cons, ← ih]
      cases hvalue : value row with
      | none =>
          have hlength := length_flatMap_toList_le rows value
          constructor
          · intro heq
            have hcount := congrArg List.length heq
            simp only [Option.toList_none, List.map_nil, List.nil_append, List.length_map,
              List.length_cons] at hcount
            omega
          · rintro ⟨hsome, _⟩
            cases hsome
      | some found => simp

/-- The collected lists have an entry for each dictionary, in order, exactly when all
dictionaries have the same keys. -/
theorem collect_aligned_iff {ρ : Type} {rows : List ρ} {info : ρ → Dict κ ν} :
    (∀ entry ∈ (collect (rows.flatMap fun row => (info row).entries)).entries,
      entry.2.map some = rows.map fun row => (info row).get? entry.1) ↔
      ∀ first ∈ rows, ∀ second ∈ rows, ∀ key ∈ (info first).keys, key ∈ (info second).keys := by
  have hvalues : ∀ key, (collect (rows.flatMap fun row => (info row).entries)).getD key [] =
      rows.flatMap fun row => ((info row).get? key).toList := by
    intro key
    rw [getD_collect, List.filter_flatMap, List.map_flatMap]
    exact List.flatMap_congr fun row _ => filter_entries _ _
  have hentry : ∀ entry ∈ (collect (rows.flatMap fun row => (info row).entries)).entries,
      entry.2 = rows.flatMap fun row => ((info row).get? entry.1).toList := by
    intro entry hentry
    have hget := (get?_eq_some_iff _ _ _).mpr hentry
    rw [← hvalues, getD, hget, Option.getD_some]
  constructor
  · intro haligned first hfirst second hsecond key hkey
    have hkeys : key ∈ (collect (rows.flatMap fun row => (info row).entries)).keys := by
      rw [mem_keys_collect, List.map_flatMap]
      exact List.mem_flatMap.mpr ⟨first, hfirst, hkey⟩
    obtain ⟨entry, hmem, rfl⟩ := List.mem_map.mp hkeys
    have hall := haligned entry hmem
    rw [hentry entry hmem, map_some_flatMap_toList_iff] at hall
    exact (get?_isSome_iff _ _).mp (hall second hsecond)
  · intro hsame entry hmem
    have hkey : entry.1 ∈ (collect (rows.flatMap fun row => (info row).entries)).keys :=
      List.mem_map_of_mem hmem
    rw [mem_keys_collect, List.map_flatMap] at hkey
    obtain ⟨first, hfirst, hkey⟩ := List.mem_flatMap.mp hkey
    rw [hentry entry hmem, map_some_flatMap_toList_iff]
    exact fun second hsecond => (get?_isSome_iff _ _).mpr (hsame first hfirst second hsecond _ hkey)

/-- A comprehension over the keys. -/
theorem get?_ofList_map (keys : List κ) (value : κ → ν) (key : κ) :
    (ofList (keys.map fun key => (key, value key))).get? key =
      if key ∈ keys then some (value key) else none := by
  rw [ofList, List.foldl_map, get?_foldl_insert, get?_empty]

/-- The dictionary of the values that a computation gives for the entries. -/
def traverse {ε μ : Type} (f : κ → ν → Except ε μ) (dict : Dict κ ν) : Except ε (Dict κ μ) := do
  let entries ← dict.entries.mapM fun entry => do return (entry.1, ← f entry.1 entry.2)
  return ofList entries

theorem traverse_eq_ok {ε μ : Type} {f : κ → ν → Except ε μ} {g : κ → ν → μ} {dict : Dict κ ν}
    (hok : ∀ entry ∈ dict.entries, f entry.1 entry.2 = .ok (g entry.1 entry.2)) :
    dict.traverse f = .ok (dict.mapWithKey g) := by
  have hentries : dict.entries.mapM (fun entry => do return (entry.1, ← f entry.1 entry.2)) =
      .ok (dict.mapWithKey g).entries := by
    refine Checks.mapM_eq_ok_map fun entry hentry => ?_
    rw [hok entry hentry]
    rfl
  rw [traverse, hentries]
  refine congrArg Except.ok (Dict.ext ?_)
  exact entries_ofList (dict.mapWithKey g).nodup_keys

/-- A replacement of the values that the calls undo. -/
theorem traverse_map_eq_ok {ε μ : Type} {f : κ → μ → Except ε ν} {g : ν → μ} {dict : Dict κ ν}
    (hok : ∀ entry ∈ dict.entries, f entry.1 (g entry.2) = .ok entry.2) :
    (dict.map g).traverse f = .ok dict := by
  have hentries : (dict.map g).entries.mapM (fun entry => do
      return (entry.1, ← f entry.1 entry.2)) = .ok (dict.entries.map id) := by
    rw [entries_map, List.mapM_map]
    refine Checks.mapM_eq_ok_map fun entry hentry => ?_
    change (do return (entry.1, ← f entry.1 (g entry.2)) : Except ε (κ × ν)) = _
    rw [hok entry hentry]
    rfl
  rw [traverse, hentries, List.map_id]
  exact congrArg Except.ok (Dict.ext (entries_ofList dict.nodup_keys))

theorem traverse_isOk {ε μ : Type} {f : κ → ν → Except ε μ} {dict : Dict κ ν} {result : Dict κ μ}
    (hok : dict.traverse f = .ok result) {entry : κ × ν} (hentry : entry ∈ dict.entries) :
    ∃ value, f entry.1 entry.2 = .ok value := by
  obtain ⟨entries, hentries, _⟩ := Checks.bind_eq_ok.mp hok
  obtain ⟨value, hvalue⟩ := Checks.eq_ok_of_mapM hentries hentry
  obtain ⟨found, hfound, _⟩ := Checks.bind_eq_ok.mp hvalue
  exact ⟨found, hfound⟩

end Dict

end OneShotOPD
