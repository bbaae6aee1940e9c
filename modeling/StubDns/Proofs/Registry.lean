import Mathlib.Data.Finset.Card
import Mathlib.Data.List.Infix
import StubDns.Registry

/-! What a registry has become after any requests: one object for each pair of an address and a
scope, numbered in the order in which the pairs first came up. -/
namespace StubDns.Registry

/-- What an object is asked for with. The scope of the object itself may be another. -/
abbrev Key := IPv4 × UInt32

variable {links : List Link} {keys later : List Key} {key other : Key}

theorem eraseDups_concat (keys : List Key) (key : Key) :
    (keys ++ [key]).eraseDups =
      if key ∈ keys then keys.eraseDups else keys.eraseDups ++ [key] := by
  rw [List.eraseDups_append]
  by_cases h : key ∈ keys
  · simp [List.removeAll, h]
  · simp [List.removeAll, h, List.eraseDups_cons]

theorem length_eraseDups (keys : List Key) : keys.eraseDups.length = keys.toFinset.card := by
  induction keys using List.reverseRecOn with
  | nil => rfl
  | append_singleton keys key ih =>
    rw [eraseDups_concat, List.toFinset_append]
    by_cases h : key ∈ keys
    · have hmem : key ∈ keys.toFinset := List.mem_toFinset.mpr h
      have hsame : keys.toFinset ∪ [key].toFinset = keys.toFinset := by simp [hmem]
      rw [if_pos h, hsame, ih]
    · have hnew : key ∉ keys.toFinset := fun hmem => h (List.mem_toFinset.mp hmem)
      have hone : keys.toFinset ∪ [key].toFinset = insert key keys.toFinset := by simp
      rw [if_neg h, hone, Finset.card_insert_of_notMem hnew, List.length_append, ih]
      rfl

/-- The entry that is made for a key when there are `number` entries. -/
def entryFor (links : List Link) (number : Nat) (key : Key) : RegistryEntry :=
  ⟨key.1, key.2, ⟨number, classify links key.1 key.2⟩⟩

/-- The registry in which all of `keys` were asked for. -/
def after (links : List Link) (keys : List Key) : Registry :=
  ⟨links, keys.eraseDups.mapIdx (entryFor links)⟩

/-- The object that stands for a key once all of `keys` were asked for. -/
def objectFor (links : List Link) (keys : List Key) (key : Key) : Registered :=
  ⟨keys.eraseDups.idxOf key, classify links key.1 key.2⟩

theorem after_nil (links : List Link) : after links [] = { links } := rfl

theorem size_after (links : List Link) (keys : List Key) :
    (after links keys).size = keys.toFinset.card := by
  rw [← length_eraseDups]
  exact List.length_mapIdx

-- Objects are told apart by the scope that was asked for, also where the host itself has another.
example : (after [] [(⟨127, 0, 0, 1⟩, 0), (⟨127, 0, 0, 1⟩, 5), (⟨127, 0, 0, 1⟩, 0)]).entries.map
    (fun entry => (entry.scopeId, entry.object.host.scopeId)) = [(0, 1), (5, 1)] := by
  decide +kernel

theorem find?_entries (links : List Link) (start : Nat) (keys : List Key) (key : Key) :
    (keys.mapIdx fun place => entryFor links (place + start)).find?
        (fun entry => entry.address = key.1 ∧ entry.scopeId = key.2) =
      if key ∈ keys then some (entryFor links (keys.idxOf key + start) key) else none := by
  induction keys generalizing start with
  | nil => rfl
  | cons first keys ih =>
    rw [List.mapIdx_cons]
    by_cases h : first = key
    · subst h
      simp [entryFor]
    · have hother : ¬ (first.1 = key.1 ∧ first.2 = key.2) := by
        intro hsame
        exact h (Prod.ext hsame.1 hsame.2)
      have hshift : (fun place => entryFor links (place + 1 + start)) =
          fun place => entryFor links (place + (start + 1)) := by
        funext place
        rw [Nat.add_assoc, Nat.add_comm 1 start]
      have hplace : keys.idxOf key + 1 + start = keys.idxOf key + (start + 1) := by omega
      rw [List.find?_cons_of_neg (by simpa [entryFor] using hother), hshift, ih (start + 1),
        List.idxOf_cons_ne keys h, hplace]
      simp [List.mem_cons, Ne.symm h]

theorem find?_after (links : List Link) (keys : List Key) (key : Key) :
    (after links keys).find? key.1 key.2 =
      if key ∈ keys then some (entryFor links (keys.eraseDups.idxOf key) key) else none := by
  have h := find?_entries links 0 keys.eraseDups key
  simp only [Nat.add_zero, List.mem_eraseDups] at h
  exact h

/-- A request gives the key's object, and leaves the registry in which it was asked for too. -/
theorem hostByAddress_after (links : List Link) (keys : List Key) (key : Key) :
    (after links keys).hostByAddress key.1 key.2 =
      (objectFor links (keys ++ [key]) key, after links (keys ++ [key])) := by
  unfold hostByAddress objectFor
  rw [find?_after, after, after, eraseDups_concat]
  by_cases h : key ∈ keys
  · rw [if_pos h, if_pos h]
    rfl
  · have hfresh : key ∉ keys.eraseDups := fun hmem => h (List.mem_eraseDups.mp hmem)
    rw [if_neg h, if_neg h, List.mapIdx_append, List.idxOf_append, if_neg hfresh]
    simp [entryFor, size]

/-- What is asked for later changes no entry and removes none. -/
theorem entries_after_prefix (links : List Link) (keys later : List Key) :
    (after links keys).entries <+: (after links (keys ++ later)).entries := by
  rw [after, after, List.eraseDups_append, List.mapIdx_append]
  exact List.prefix_append _ _

theorem objectFor_append (h : key ∈ keys) :
    objectFor links (keys ++ later) key = objectFor links keys key := by
  rw [objectFor, objectFor, List.eraseDups_append, List.idxOf_append,
    if_pos (List.mem_eraseDups.mpr h)]

theorem objectFor_number_inj (h : key ∈ keys) :
    (objectFor links keys key).number = (objectFor links keys other).number ↔ key = other :=
  List.idxOf_inj (List.mem_eraseDups.mpr h)

end StubDns.Registry
