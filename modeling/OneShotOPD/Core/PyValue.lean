import OneShotOPD.Core.Dict
import Mathlib.Data.List.Forall2
import Mathlib.Data.List.Perm.Subperm
import Mathlib.Data.Rat.Defs

/-!
# Values of a dynamic language

The values that a JSON text or a literal denotes, and their `==`.  Numbers of
all kinds compare by value.  A container compares its elements by identity
first, so an undefined number equals itself inside a container and nothing
outside of one.
-/

namespace OneShotOPD

/-- A float.  An undefined number carries the identity of its object, or none
for an object that is created where it is used. -/
inductive PyFloat where
  | finite (value : ℚ)
  | posInf
  | negInf
  | nan (object : Option ℕ)
  deriving DecidableEq

namespace PyFloat

/-- Comparison of two elements: the same object, or equal. -/
def same : PyFloat → PyFloat → Bool
  | finite left, finite right => left = right
  | posInf, posInf => true
  | negInf, negInf => true
  | nan (some left), nan (some right) => left = right
  | _, _ => false

/-- `left == right`. -/
def eq : PyFloat → PyFloat → Bool
  | nan _, _ => false
  | left, right => left.same right

theorem same_symm {left right : PyFloat} (hsame : left.same right) : right.same left := by
  unfold same at hsame ⊢
  split at hsame <;> simp_all

theorem same_trans {left middle right : PyFloat} (hfirst : left.same middle)
    (hsecond : middle.same right) : left.same right := by
  unfold same at hfirst
  split at hfirst <;> simp_all

theorem eq_iff {left right : PyFloat} :
    left.eq right ↔ left.same right ∧ ∀ object, left ≠ nan object := by
  cases left <;> simp [eq]

end PyFloat

inductive SeqKind where
  | list | tuple
  deriving DecidableEq

inductive PyValue where
  | none
  | bool (value : Bool)
  | int (value : ℤ)
  | float (value : PyFloat)
  | str (value : String)
  | seq (kind : SeqKind) (items : List PyValue)
  | dict (entries : List (String × PyValue))

namespace PyValue

/-- The numeric value of a number; a boolean is one too. -/
def number : PyValue → Option PyFloat
  | bool value => some (.finite (if value then 1 else 0))
  | int value => some (.finite value)
  | float value => some value
  | _ => .none

/-- Element comparison of two values that are not both containers. -/
def sameAtom (left right : PyValue) : Bool :=
  match left, right with
  | none, none => true
  | str left, str right => left = right
  | left, right =>
      match left.number, right.number with
      | some left, some right => left.same right
      | _, _ => false

mutual

/-- Element comparison: the same object, or equal. -/
def same : PyValue → PyValue → Bool
  | seq kind items, seq kind' items' => kind = kind' && sameItems items items'
  | dict entries, dict entries' =>
      entries.length = entries'.length && sameEntries entries entries'
  | left, right => sameAtom left right

def sameItems : List PyValue → List PyValue → Bool
  | [], [] => true
  | left :: lefts, right :: rights => same left right && sameItems lefts rights
  | _, _ => false

/-- Every entry of the first dictionary has an equal one in the second. -/
def sameEntries : List (String × PyValue) → List (String × PyValue) → Bool
  | [], _ => true
  | (key, value) :: entries, others =>
      (match others.lookup key with
        | some other => same value other
        | .none => false) && sameEntries entries others

end

/-- `left == right`. -/
def pyEq (left right : PyValue) : Bool :=
  match left.number, right.number with
  | some left, some right => left.eq right
  | _, _ => same left right

/-- No dictionary in the value repeats a key. -/
inductive WellFormed : PyValue → Prop
  | none : WellFormed none
  | bool (value : Bool) : WellFormed (bool value)
  | int (value : ℤ) : WellFormed (int value)
  | float (value : PyFloat) : WellFormed (float value)
  | str (value : String) : WellFormed (str value)
  | seq {kind : SeqKind} {items : List PyValue}
      (hitems : ∀ item ∈ items, WellFormed item) : WellFormed (seq kind items)
  | dict {entries : List (String × PyValue)} (hkeys : (entries.map Prod.fst).Nodup)
      (hvalues : ∀ entry ∈ entries, WellFormed entry.2) : WellFormed (dict entries)

theorem sameItems_iff (lefts rights : List PyValue) :
    sameItems lefts rights ↔ List.Forall₂ (fun left right => same left right) lefts rights := by
  induction lefts generalizing rights with
  | nil => cases rights <;> simp [sameItems]
  | cons left lefts ih => cases rights <;> simp [sameItems, ih]

theorem sameEntries_iff (entries others : List (String × PyValue)) :
    sameEntries entries others ↔ ∀ entry ∈ entries,
      ∃ other, others.lookup entry.1 = some other ∧ same entry.2 other := by
  induction entries with
  | nil => simp [sameEntries]
  | cons entry entries ih =>
      obtain ⟨key, value⟩ := entry
      cases hlookup : others.lookup key <;> simp [sameEntries, hlookup, ih]

theorem lookup_iff {entries : List (String × PyValue)}
    (hkeys : (entries.map Prod.fst).Nodup) (key : String) (value : PyValue) :
    entries.lookup key = some value ↔ (key, value) ∈ entries :=
  Dict.get?_eq_some_iff ⟨entries, hkeys⟩ key value

theorem same_seq (kind : SeqKind) (items : List PyValue) (right : PyValue) :
    same (seq kind items) right ↔ ∃ others, right = seq kind others ∧
      List.Forall₂ (fun left right => same left right) items others := by
  cases right with
  | seq kind' others =>
      simp only [same, Bool.and_eq_true, decide_eq_true_eq, sameItems_iff, seq.injEq]
      constructor
      · rintro ⟨rfl, hitems⟩
        exact ⟨others, ⟨rfl, rfl⟩, hitems⟩
      · rintro ⟨_, ⟨rfl, rfl⟩, hitems⟩
        exact ⟨rfl, hitems⟩
  | _ => simp [same, sameAtom, number]

theorem same_dict (entries : List (String × PyValue)) (right : PyValue) :
    same (dict entries) right ↔ ∃ others, right = dict others ∧
      entries.length = others.length ∧ ∀ entry ∈ entries,
        ∃ other, others.lookup entry.1 = some other ∧ same entry.2 other := by
  cases right with
  | dict others => simp [same, sameEntries_iff]
  | _ => simp [same, sameAtom, number]

theorem sameAtom_iff (left right : PyValue) :
    sameAtom left right ↔ (left = none ∧ right = none) ∨
      (∃ text, left = str text ∧ right = str text) ∨
      ∃ leftNumber rightNumber, left.number = some leftNumber ∧
        right.number = some rightNumber ∧ leftNumber.same rightNumber := by
  cases left <;> cases right <;> simp [sameAtom, number]
  exact eq_comm

private theorem sameAtom_symm {left right : PyValue} (hsame : sameAtom left right) :
    sameAtom right left := by
  rw [sameAtom_iff] at hsame ⊢
  rcases hsame with ⟨rfl, rfl⟩ | ⟨text, rfl, rfl⟩ | ⟨x, y, hleft, hright, hnumbers⟩
  · exact .inl ⟨rfl, rfl⟩
  · exact .inr (.inl ⟨text, rfl, rfl⟩)
  · exact .inr (.inr ⟨y, x, hright, hleft, PyFloat.same_symm hnumbers⟩)

/-- A value that is not a container is only equal to such values. -/
private theorem same_atom {left : PyValue} (hseq : ∀ kind items, left ≠ seq kind items)
    (hdict : ∀ entries, left ≠ dict entries) (right : PyValue) :
    same left right = sameAtom left right := by
  cases left <;> simp_all [same]

theorem same_symm {left right : PyValue} (hleft : left.WellFormed)
    (hright : right.WellFormed) (hsame : same left right) : same right left := by
  induction hleft generalizing right with
  | @seq kind items hitems ih =>
      obtain ⟨others, rfl, hothers⟩ := (same_seq _ _ _).mp hsame
      cases hright with
      | seq hothersFormed =>
      refine (same_seq _ _ _).mpr ⟨items, rfl, ?_⟩
      rw [List.forall₂_iff_get] at hothers ⊢
      obtain ⟨hlength, hget⟩ := hothers
      refine ⟨hlength.symm, fun position hother hitem => ?_⟩
      exact ih _ (List.get_mem _ _) (hothersFormed _ (List.get_mem _ _))
        (hget position hitem hother)
  | @dict entries hkeys hvalues ih =>
      obtain ⟨others, rfl, hlength, hothers⟩ := (same_dict _ _).mp hsame
      cases hright with
      | dict hotherKeys hotherFormed =>
      refine (same_dict _ _).mpr ⟨entries, rfl, hlength.symm, ?_⟩
      have hsubset : entries.map Prod.fst ⊆ others.map Prod.fst := by
        intro key hkey
        obtain ⟨entry, hentry, rfl⟩ := List.mem_map.mp hkey
        obtain ⟨other, hlookup, _⟩ := hothers entry hentry
        exact List.mem_map.mpr ⟨_, (lookup_iff hotherKeys _ _).mp hlookup, rfl⟩
      have hperm : (entries.map Prod.fst).Perm (others.map Prod.fst) :=
        (List.subperm_of_subset hkeys hsubset).perm_of_length_le (by simp [hlength])
      rintro ⟨key, other⟩ hother
      have hkey : key ∈ entries.map Prod.fst :=
        hperm.mem_iff.mpr (List.mem_map.mpr ⟨_, hother, rfl⟩)
      obtain ⟨⟨_, value⟩, hentry, rfl⟩ := List.mem_map.mp hkey
      refine ⟨value, (lookup_iff hkeys _ _).mpr hentry, ?_⟩
      obtain ⟨found, hfound, hequal⟩ := hothers _ hentry
      obtain rfl : found = other := by
        have hlookup := (lookup_iff hotherKeys _ _).mpr hother
        exact Option.some.inj (hfound.symm.trans hlookup)
      exact ih _ hentry (hotherFormed _ hother) hequal
  | _ =>
      rw [same_atom (by simp) (by simp)] at hsame
      have hback := sameAtom_symm hsame
      cases right <;> simp_all [same, sameAtom, number]

theorem same_trans {left middle right : PyValue} (hleft : left.WellFormed)
    (hmiddle : middle.WellFormed) (hfirst : same left middle)
    (hsecond : same middle right) : same left right := by
  induction hleft generalizing middle right with
  | @seq kind items hitems ih =>
      obtain ⟨others, rfl, hothers⟩ := (same_seq _ _ _).mp hfirst
      obtain ⟨thirds, rfl, hthirds⟩ := (same_seq _ _ _).mp hsecond
      cases hmiddle with
      | seq hothersFormed =>
      refine (same_seq _ _ _).mpr ⟨thirds, rfl, ?_⟩
      rw [List.forall₂_iff_get] at hothers hthirds ⊢
      refine ⟨hothers.1.trans hthirds.1, fun position hitem hthird => ?_⟩
      have hother : position < others.length := hothers.1 ▸ hitem
      exact ih _ (List.get_mem _ _) (hothersFormed _ (List.get_mem _ ⟨position, hother⟩))
        (hothers.2 position hitem hother) (hthirds.2 position hother hthird)
  | @dict entries hkeys hvalues ih =>
      obtain ⟨others, rfl, hlength, hothers⟩ := (same_dict _ _).mp hfirst
      obtain ⟨thirds, rfl, hlength', hthirds⟩ := (same_dict _ _).mp hsecond
      cases hmiddle with
      | dict hotherKeys hotherFormed =>
      refine (same_dict _ _).mpr ⟨thirds, rfl, hlength.trans hlength', ?_⟩
      intro entry hentry
      obtain ⟨other, hlookup, hequal⟩ := hothers entry hentry
      have hother := (lookup_iff hotherKeys _ _).mp hlookup
      obtain ⟨third, hthird, hequal'⟩ := hthirds _ hother
      exact ⟨third, hthird, ih _ hentry (hotherFormed _ hother) hequal hequal'⟩
  | _ =>
      rw [same_atom (by simp) (by simp)] at hfirst ⊢
      cases middle <;> cases right <;>
        simp_all [same, sameAtom, number] <;>
        exact PyFloat.same_trans hfirst hsecond

/-- Equality is element comparison, except that an undefined number is not equal
to itself. -/
theorem pyEq_iff (left right : PyValue) :
    pyEq left right ↔ same left right ∧ ∀ object, left ≠ float (.nan object) := by
  cases left <;> cases right <;>
    simp [pyEq, same, sameAtom, number, PyFloat.eq_iff, PyFloat.same]

theorem pyEq_symm {left right : PyValue} (hleft : left.WellFormed)
    (hright : right.WellFormed) (heq : pyEq left right) : pyEq right left := by
  rw [pyEq_iff] at heq ⊢
  obtain ⟨hsame, hnan⟩ := heq
  refine ⟨same_symm hleft hright hsame, ?_⟩
  rintro object rfl
  cases left with
  | float value => cases value <;> simp_all [same, sameAtom, number, PyFloat.same]
  | _ => simp_all [same, sameAtom, number, PyFloat.same]

theorem pyEq_trans {left middle right : PyValue} (hleft : left.WellFormed)
    (hmiddle : middle.WellFormed) (hfirst : pyEq left middle)
    (hsecond : pyEq middle right) : pyEq left right := by
  rw [pyEq_iff] at hfirst hsecond ⊢
  exact ⟨same_trans hleft hmiddle hfirst.1 hsecond.1, hfirst.2⟩

end PyValue

/-- A value as it exists at run time. -/
abbrev PyObject := { value : PyValue // value.WellFormed }

/-- String methods of the language. -/
structure PyStrings where
  strip : String → String
  lower : String → String
  int : String → Option ℤ
  float : String → Option PyFloat

end OneShotOPD
