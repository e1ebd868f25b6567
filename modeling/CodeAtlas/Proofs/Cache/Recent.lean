import CodeAtlas.Cache.Recent
import Mathlib.Data.List.Basic

/-!
# Reading a table of bounded size

What is found under a key after each change of the table. Making room and marking a key as used add
nothing: a value that is found was put there under the same key.
-/

namespace CodeAtlas.Recent

variable {κ ν : Type} [BEq κ]

theorem peek?_empty (capacity : Nat) (key : κ) : (empty capacity : Recent κ ν).peek? key = none := rfl

variable [LawfulBEq κ] {cache : Recent κ ν} {key other : κ} {value found : ν}

theorem find?_erase (cache : Recent κ ν) (h : other ≠ key) :
    (cache.erase key).entries.find? (·.1 == other) = cache.entries.find? (·.1 == other) := by
  unfold erase
  rw [List.find?_filter]
  congr 1
  funext entry
  by_cases hother : entry.1 = other
  · simp [hother, h]
  · simp [hother]

theorem peek?_erase_self (cache : Recent κ ν) (key : κ) : (cache.erase key).peek? key = none := by
  simp [peek?, erase, List.find?_filter]

theorem peek?_erase_of_ne (cache : Recent κ ν) (h : other ≠ key) :
    (cache.erase key).peek? other = cache.peek? other := by
  unfold peek?
  rw [find?_erase cache h]

theorem peek?_of_peek?_erase (h : (cache.erase key).peek? other = some found) :
    cache.peek? other = some found := by
  by_cases hother : other = key
  · subst hother
    rw [peek?_erase_self] at h
    cases h
  · rwa [peek?_erase_of_ne cache hother] at h

/-- A key that goes need not have been marked as used. -/
theorem erase_touch (cache : Recent κ ν) (key : κ) : (cache.touch key).erase key = cache.erase key := by
  unfold touch
  split
  · rename_i entry hfind
    have hkey : entry.1 = key := by simpa using List.find?_some hfind
    simp [erase, hkey]
  · rfl

theorem peek?_touch (cache : Recent κ ν) (key other : κ) :
    (cache.touch key).peek? other = cache.peek? other := by
  unfold touch
  split
  · rename_i entry hfind
    have hkey : entry.1 = key := by simpa using List.find?_some hfind
    unfold peek?
    by_cases hother : other = key
    · subst hother
      simp [hkey, hfind]
    · have hne : (entry.1 == other) = false := by simp [hkey, Ne.symm hother]
      rw [List.find?_cons_of_neg (by simp [hne]), find?_erase cache hother]
  · rfl

theorem peek?_insert_self (cache : Recent κ ν) (key : κ) (value : ν) (h : 0 < cache.capacity) :
    (cache.insert key value).peek? key = some value := by
  obtain ⟨room, hroom⟩ := Nat.exists_eq_add_one.mpr h
  simp [peek?, insert, hroom]

/-- What is found after a change is the new value, or was found before under another key. -/
theorem peek?_insert (h : (cache.insert key value).peek? other = some found) :
    other = key ∧ found = value ∨ other ≠ key ∧ cache.peek? other = some found := by
  obtain ⟨entry, hfind, rfl⟩ := Option.map_eq_some_iff.mp h
  have hwhole : ((key, value) :: (cache.erase key).entries).find? (·.1 == other) = some entry :=
    List.IsPrefix.find?_eq_some (List.take_prefix cache.capacity _) hfind
  by_cases hother : other = key
  · subst hother
    rw [List.find?_cons_of_pos (by simp)] at hwhole
    exact .inl ⟨rfl, by rw [← Option.some.inj hwhole]⟩
  · rw [List.find?_cons_of_neg (by simp [Ne.symm hother]), find?_erase cache hother] at hwhole
    exact .inr ⟨hother, by rw [peek?, hwhole]; rfl⟩

end CodeAtlas.Recent
