import OneShotOPD.Core.Dict

/-!
# Batching by key

Items arrive with a key and wait in the queue of their key until it is full.
The queues that are not empty at the end are emptied in the order in which
their keys were first seen.  Every item is handed on once, and items of one key
keep their order; items of different keys need not.
-/

namespace OneShotOPD

variable {κ α : Type}

/-- The waiting items by key, and those that have been handed on. -/
structure Batches (κ α : Type) where
  queues : Dict κ (List α)
  done : List (κ × α)

namespace Batches

def empty : Batches κ α := ⟨Dict.empty, []⟩

variable [DecidableEq κ]

def put (capacity : ℕ) (batches : Batches κ α) (item : κ × α) : Batches κ α :=
  let items := batches.queues.getD item.1 [] ++ [item.2]
  if capacity ≤ items.length then
    { queues := batches.queues.insert item.1 []
      done := batches.done ++ items.map fun value => (item.1, value) }
  else { batches with queues := batches.queues.insert item.1 items }

/-- What has been handed on after all queues are emptied. -/
def finish (batches : Batches κ α) : List (κ × α) :=
  batches.done ++ batches.queues.entries.flatMap fun queue =>
    queue.2.map fun value => (queue.1, value)

def run (capacity : ℕ) (items : List (κ × α)) : List (κ × α) :=
  (items.foldl (put capacity) empty).finish

/-- The items of one key, handed on or waiting. -/
def ofKey (batches : Batches κ α) (key : κ) : List (κ × α) :=
  (batches.done.filter fun item => item.1 = key) ++
    (batches.queues.getD key []).map fun value => (key, value)

private theorem filter_tagged (values : List α) (key other : κ) :
    ((values.map fun value => (key, value)).filter fun item => item.1 = other) =
      if key = other then values.map (fun value => (key, value)) else [] := by
  by_cases hkey : key = other
  · simp [hkey, List.filter_map, Function.comp_def]
  · simp [hkey, List.filter_map, Function.comp_def]

theorem getD_insert (dict : Dict κ (List α)) (key other : κ) (values : List α) :
    (dict.insert key values).getD other [] =
      if other = key then values else dict.getD other [] := by
  rw [Dict.getD, Dict.get?_insert]
  split <;> rfl

/-- An arriving item is added behind those of its key. -/
theorem ofKey_put (capacity : ℕ) (batches : Batches κ α) (item : κ × α) (key : κ) :
    (batches.put capacity item).ofKey key =
      batches.ofKey key ++ [item].filter fun item => item.1 = key := by
  obtain ⟨own, value⟩ := item
  by_cases hkey : own = key
  · subst hkey
    rw [put]
    split
    next => simp [ofKey, getD_insert, filter_tagged]
    next => simp [ofKey, getD_insert]
  · rw [put]
    split
    next => simp [ofKey, getD_insert, filter_tagged, hkey, Ne.symm hkey]
    next => simp [ofKey, getD_insert, hkey, Ne.symm hkey]

theorem ofKey_foldl (capacity : ℕ) (items : List (κ × α)) (batches : Batches κ α)
    (key : κ) :
    (items.foldl (put capacity) batches).ofKey key =
      batches.ofKey key ++ items.filter fun item => item.1 = key := by
  induction items generalizing batches with
  | nil => simp
  | cons item items ih =>
      rw [List.foldl_cons, ih, ofKey_put, List.append_assoc, ← List.filter_append,
        List.singleton_append]

private theorem filter_entries (entries : List (κ × List α)) (key : κ)
    (hnodup : (entries.map Prod.fst).Nodup) :
    ((entries.flatMap fun queue => queue.2.map fun value => (queue.1, value)).filter
        fun item => item.1 = key) =
      ((entries.lookup key).getD []).map fun value => (key, value) := by
  induction entries with
  | nil => rfl
  | cons queue entries ih =>
      obtain ⟨own, values⟩ := queue
      rw [List.map_cons, List.nodup_cons] at hnodup
      rw [List.flatMap_cons, List.filter_append, filter_tagged, ih hnodup.2]
      by_cases hkey : own = key
      · subst hkey
        have habsent : entries.lookup own = none := by
          refine List.lookup_eq_none_iff.mpr fun queue hqueue => ?_
          have hne : own ≠ queue.1 := fun heq =>
            hnodup.1 (List.mem_map.mpr ⟨queue, hqueue, heq.symm⟩)
          simpa using hne
        simp [habsent]
      · have hbeq : (key == own) = false := by simpa using Ne.symm hkey
        simp [List.lookup_cons, hbeq, hkey]

theorem filter_finish (batches : Batches κ α) (key : κ) :
    (batches.finish.filter fun item => item.1 = key) = batches.ofKey key := by
  rw [finish, List.filter_append, filter_entries _ _ batches.queues.nodup_keys]
  rfl

/-- Of every key, exactly its items are handed on, in order. -/
theorem filter_run (capacity : ℕ) (items : List (κ × α)) (key : κ) :
    ((run capacity items).filter fun item => item.1 = key) =
      items.filter fun item => item.1 = key := by
  rw [run, filter_finish, ofKey_foldl]
  simp [ofKey, empty, Dict.getD]

/-- Every item is handed on, and nothing else. -/
theorem mem_run {capacity : ℕ} {items : List (κ × α)} {item : κ × α} :
    item ∈ run capacity items ↔ item ∈ items := by
  have hmem : ∀ others : List (κ × α),
      item ∈ (others.filter fun other => other.1 = item.1) ↔ item ∈ others := by
    intro others
    simp
  rw [← hmem, filter_run, hmem]

end Batches

end OneShotOPD
