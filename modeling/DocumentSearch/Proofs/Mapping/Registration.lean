import DocumentSearch.Mapping.Registry
import Mathlib.Data.List.Nodup
import Mathlib.Data.Set.Card

/-!
# A registry remembers the order of registration

A registry keeps a list and looks for the first entry of a key, so all that it says rests on there
being one entry for each key. What it is to say is told by the steps that have made it: the last
step about a key decides what the key has, and a key that is registered stands since the step
that found it absent. `EnteredAt` names that step. Any sequence of steps leaves the keys in the
order of these steps.
-/

namespace DocumentSearch

namespace Registry

/-- The keys under which mappings are kept. -/
def keys (r : Registry) : List String := r.entries.map Prod.fst

/-! ### One registration, one removal -/

section Operations

variable {r : Registry} {key : String}

theorem contains_eq (r : Registry) (key : String) : r.contains key = (r.get? key).isSome := by
  rw [contains, get?, Option.isSome_map, List.isSome_find?]

theorem mem_keys_iff : key ∈ r.keys ↔ (r.get? key).isSome := by
  rw [← contains_eq, contains, List.any_eq_true]
  simp [keys]

theorem keys_registerIn (key : String) (mapping : Mapping) (entries : List (String × Mapping)) :
    (registerIn key mapping entries).map Prod.fst =
      if key ∈ entries.map Prod.fst then entries.map Prod.fst
      else entries.map Prod.fst ++ [key] := by
  induction entries with
  | nil => rfl
  | cons e rest ih =>
    obtain ⟨k, m⟩ := e
    rw [registerIn]
    by_cases hk : k = key
    · simp [hk]
    · simp only [hk, if_false, List.map_cons, ih, List.mem_cons, Ne.symm hk, false_or]
      exact apply_ite (List.cons k) _ _ _

theorem keys_register_of_mem (h : key ∈ r.keys) (mapping : Mapping) :
    (r.register key mapping).keys = r.keys :=
  (keys_registerIn key mapping r.entries).trans (if_pos h)

theorem keys_register_of_not_mem (h : key ∉ r.keys) (mapping : Mapping) :
    (r.register key mapping).keys = r.keys ++ [key] :=
  (keys_registerIn key mapping r.entries).trans (if_neg h)

theorem keys_unregister (r : Registry) (key : String) :
    (r.unregister key).keys = r.keys.erase key := by
  rw [keys, keys, unregister, List.erase_eq_eraseP', List.eraseP_map]
  rfl

theorem remove_eq (r : Registry) (key : String) :
    r.remove key = (r.contains key, r.unregister key) := by
  rw [remove]
  split
  next hfound => rw [hfound]
  next habsent =>
    rw [Bool.not_eq_true] at habsent
    rw [habsent, unregister, List.eraseP_of_forall_not (List.any_eq_false.mp habsent)]

theorem get?_register (r : Registry) (key : String) (mapping : Mapping) (other : String) :
    (r.register key mapping).get? other = if key = other then some mapping else r.get? other := by
  obtain ⟨entries⟩ := r
  simp only [get?, register]
  induction entries with
  | nil => by_cases h : key = other <;> simp [registerIn, h]
  | cons e rest ih =>
    obtain ⟨k, m⟩ := e
    rw [registerIn]
    by_cases hk : k = key
    · by_cases h : key = other <;> simp [hk, h]
    · by_cases h : k = other
      · subst h
        simp [hk, Ne.symm hk]
      · simp [hk, h, ih]

theorem get?_eq_none (h : key ∉ r.keys) : r.get? key = none := by
  rwa [mem_keys_iff, Option.not_isSome_iff_eq_none] at h

/-- Were a key kept twice, the second entry would show when the first is taken out. -/
theorem get?_unregister (h : r.keys.Nodup) (key other : String) :
    (r.unregister key).get? other = if key = other then none else r.get? other := by
  obtain ⟨entries⟩ := r
  simp only [unregister]
  induction entries with
  | nil => simp [get?]
  | cons e rest ih =>
    obtain ⟨k, m⟩ := e
    obtain ⟨hfirst, hrest⟩ := List.nodup_cons.mp h
    by_cases hk : k = key
    · subst hk
      by_cases hother : k = other
      · subst hother
        simpa using get?_eq_none (r := ⟨rest⟩) hfirst
      · simp [get?, hother]
    · have hkept := ih hrest
      by_cases hother : k = other
      · subst hother
        simp [get?, hk, Ne.symm hk]
      · simpa [get?, hk, hother] using hkept

theorem get?_of_mem (h : r.keys.Nodup) {e : String × Mapping} (he : e ∈ r.entries) :
    r.get? e.1 = some e.2 := by
  have hsome : (r.get? e.1).isSome := mem_keys_iff.mp (List.mem_map_of_mem he)
  obtain ⟨m, hm⟩ := Option.isSome_iff_exists.mp hsome
  obtain ⟨found, hfound, rfl⟩ := Option.map_eq_some_iff.mp hm
  have hkey : found.1 = e.1 := by simpa using List.find?_some hfound
  rw [hm, List.inj_on_of_nodup_map h (List.mem_of_find?_eq_some hfound) he hkey]

theorem map_some_all (h : r.keys.Nodup) : r.all.map some = r.keys.map r.get? := by
  rw [all, keys, List.map_map, List.map_map]
  exact List.map_congr_left fun e he => (get?_of_mem h he).symm

theorem size_eq_encard (h : r.keys.Nodup) :
    (r.size : ℕ∞) = {key | key ∈ r.keys}.encard := by
  have hset : {key | key ∈ r.keys} = (r.keys.toFinset : Set String) := by simp
  rw [hset, Set.encard_coe_eq_coe_finsetCard, List.toFinset_card_of_nodup h, keys, List.length_map]
  rfl

end Operations

/-! ### What the steps tell -/

/-- What is done with a registry. -/
inductive Step where
  | register (key : String) (mapping : Mapping)
  | unregister (key : String)
  deriving DecidableEq, Repr

namespace Step

/-- The answer to a step, if it is given one, and the registry after it. -/
def run (s : Step) (r : Registry) : Option Bool × Registry :=
  match s with
  | .register key mapping => (none, r.register key mapping)
  | .unregister key => (some (r.remove key).1, (r.remove key).2)

/-- The key that the step is about. -/
def key : Step → String
  | .register key _ => key
  | .unregister key => key

/-- What the key has after the step. -/
def mapping? : Step → Option Mapping
  | .register _ mapping => some mapping
  | .unregister _ => none

end Step

/-- The registry that these steps make, from one that is empty. -/
def after (steps : List Step) : Registry := steps.foldl (fun r s => (s.run r).2) empty

/-- What the last step about `key` leaves there. -/
def current? (steps : List Step) (key : String) : Option Mapping :=
  (steps.reverse.find? fun s => s.key = key).bind Step.mapping?

/-- Whether the steps leave something under `key`. -/
def live (steps : List Step) (key : String) : Bool := (current? steps key).isSome

/-- Step `i` is the earliest registration of `key` since it was last absent. -/
structure EnteredAt (steps : List Step) (key : String) (i : Nat) : Prop where
  registers : ∃ mapping, steps[i]? = some (.register key mapping)
  absent : live (steps.take i) key = false
  stays : ∀ j, i < j → j ≤ steps.length → live (steps.take j) key = true

/-- `a` was entered before `b`. -/
def Earlier (steps : List Step) (a b : String) : Prop :=
  ∃ i j, EnteredAt steps a i ∧ EnteredAt steps b j ∧ i < j

section Histories

variable {steps : List Step} {key : String} {i j : Nat}

theorem after_concat (steps : List Step) (s : Step) :
    after (steps ++ [s]) = (s.run (after steps)).2 := by
  rw [after, List.foldl_append]
  rfl

theorem current?_concat (steps : List Step) (s : Step) (key : String) :
    current? (steps ++ [s]) key = if s.key = key then s.mapping? else current? steps key := by
  rw [current?, current?, List.reverse_concat, List.find?_cons]
  by_cases h : s.key = key <;> simp [h]

theorem live_concat_of_ne {s : Step} (h : s.key ≠ key) :
    live (steps ++ [s]) key = live steps key := by
  rw [live, live, current?_concat, if_neg h]

theorem live_concat_register (steps : List Step) (key : String) (mapping : Mapping) :
    live (steps ++ [.register key mapping]) key = true := by
  rw [live, current?_concat]
  simp [Step.key, Step.mapping?]

theorem EnteredAt.lt_length (h : EnteredAt steps key i) : i < steps.length := by
  obtain ⟨mapping, hstep⟩ := h.registers
  exact (List.getElem?_eq_some_iff.mp hstep).1

theorem EnteredAt.unique (hi : EnteredAt steps key i) (hj : EnteredAt steps key j) : i = j := by
  rcases Nat.lt_trichotomy i j with hlt | heq | hgt
  · have hlive := hi.stays j hlt hj.lt_length.le
    exact absurd hlive (by simp [hj.absent])
  · exact heq
  · have hlive := hj.stays i hgt hi.lt_length.le
    exact absurd hlive (by simp [hi.absent])

/-- What was entered stays where it is as long as it is there. -/
theorem EnteredAt.concat (h : EnteredAt steps key i) {s : Step}
    (hlive : live (steps ++ [s]) key = true) : EnteredAt (steps ++ [s]) key i where
  registers := by
    rw [List.getElem?_append_left h.lt_length]
    exact h.registers
  absent := by
    rw [List.take_append_of_le_length h.lt_length.le]
    exact h.absent
  stays := by
    intro j hij hj
    rcases Nat.lt_or_ge steps.length j with hlast | hbefore
    · rwa [List.take_of_length_le (by simpa using hlast)]
    · rw [List.take_append_of_le_length hbefore]
      exact h.stays j hij hbefore

theorem enteredAt_of_absent (h : live steps key = false) (mapping : Mapping) :
    EnteredAt (steps ++ [.register key mapping]) key steps.length where
  registers := ⟨mapping, List.getElem?_concat_length⟩
  absent := by rwa [List.take_left]
  stays := by
    intro j hij _
    rw [List.take_of_length_le (by simpa using hij)]
    exact live_concat_register steps key mapping

/-- What is there has been entered. The induction takes the last step off: either the key was there
before it, or the step enters it. -/
theorem exists_enteredAt (h : live steps key = true) : ∃ i, EnteredAt steps key i := by
  induction steps using List.reverseRecOn with
  | nil => cases h
  | append_singleton steps s ih =>
    cases hbefore : live steps key with
    | true =>
      obtain ⟨i, hi⟩ := ih hbefore
      exact ⟨i, hi.concat h⟩
    | false =>
      have hkey : s.key = key := by
        by_contra hne
        rw [live_concat_of_ne hne, hbefore] at h
        cases h
      cases s with
      | register k mapping =>
        obtain rfl : k = key := hkey
        exact ⟨_, enteredAt_of_absent hbefore mapping⟩
      | unregister k =>
        rw [live, current?_concat, if_pos hkey] at h
        cases h

theorem Earlier.concat {a b : String} (h : Earlier steps a b) {s : Step}
    (ha : live (steps ++ [s]) a = true) (hb : live (steps ++ [s]) b = true) :
    Earlier (steps ++ [s]) a b := by
  obtain ⟨i, j, hi, hj, hij⟩ := h
  exact ⟨i, j, hi.concat ha, hj.concat hb, hij⟩

/-- What is entered last is entered after everything that is there. -/
theorem earlier_of_absent {a : String} (ha : live steps a = true) (hb : live steps key = false)
    (mapping : Mapping) : Earlier (steps ++ [.register key mapping]) a key := by
  have hne : key ≠ a := by
    rintro rfl
    rw [ha] at hb
    cases hb
  obtain ⟨i, hi⟩ := exists_enteredAt ha
  have hstays : live (steps ++ [.register key mapping]) a = live steps a := live_concat_of_ne hne
  exact ⟨i, steps.length, hi.concat (hstays.trans ha), enteredAt_of_absent hb mapping,
    hi.lt_length⟩

end Histories

/-! ### What the registry keeps of them -/

/-- The registry has for each key what the steps leave there, once, in the order of entry. -/
structure Reflects (steps : List Step) (r : Registry) : Prop where
  nodup : r.keys.Nodup
  get?_eq : ∀ key, r.get? key = current? steps key
  ordered : r.keys.Pairwise (Earlier steps)

namespace Reflects

variable {steps : List Step} {r : Registry} {key : String}

theorem mem_keys_iff_live (h : Reflects steps r) : key ∈ r.keys ↔ live steps key = true := by
  rw [mem_keys_iff, h.get?_eq, live]

theorem live_eq_false (h : Reflects steps r) (hkey : key ∉ r.keys) : live steps key = false := by
  rwa [h.mem_keys_iff_live, Bool.not_eq_true] at hkey

/-- Keys that are still there keep their order. -/
theorem pairwise_concat (h : Reflects steps r) {s : Step} {keys : List String}
    (hsub : keys.Sublist r.keys) (hlive : ∀ key ∈ keys, live (steps ++ [s]) key = true) :
    keys.Pairwise (Earlier (steps ++ [s])) :=
  (h.ordered.sublist hsub).imp_of_mem fun ha hb hab => hab.concat (hlive _ ha) (hlive _ hb)

theorem register (h : Reflects steps r) (key : String) (mapping : Mapping) :
    Reflects (steps ++ [.register key mapping]) (r.register key mapping) := by
  have hget (other : String) : (r.register key mapping).get? other =
      current? (steps ++ [.register key mapping]) other := by
    rw [get?_register, current?_concat, h.get?_eq]
    rfl
  have hlive : ∀ other ∈ r.keys, live (steps ++ [.register key mapping]) other = true := by
    intro other hother
    rw [live, ← hget, get?_register]
    split
    · rfl
    · exact mem_keys_iff.mp hother
  -- A key that is there keeps its place; one that is not goes behind all that are.
  by_cases hkey : key ∈ r.keys
  · have hkeys := keys_register_of_mem hkey mapping
    refine ⟨hkeys ▸ h.nodup, hget, ?_⟩
    rw [hkeys]
    exact h.pairwise_concat (.refl _) hlive
  · have hkeys := keys_register_of_not_mem hkey mapping
    refine ⟨?_, hget, ?_⟩
    · rw [hkeys, ← List.concat_eq_append]
      exact h.nodup.concat hkey
    · rw [hkeys, List.pairwise_append]
      refine ⟨h.pairwise_concat (.refl _) hlive, List.pairwise_singleton _ _, ?_⟩
      intro a ha b hb
      rw [List.mem_singleton.mp hb]
      exact earlier_of_absent (h.mem_keys_iff_live.mp ha) (h.live_eq_false hkey) mapping

theorem unregister (h : Reflects steps r) (key : String) :
    Reflects (steps ++ [.unregister key]) (r.unregister key) := by
  have hget (other : String) : (r.unregister key).get? other =
      current? (steps ++ [.unregister key]) other := by
    rw [get?_unregister h.nodup, current?_concat, h.get?_eq]
    rfl
  have hlive : ∀ other ∈ (r.unregister key).keys,
      live (steps ++ [.unregister key]) other = true := by
    intro other hother
    rw [live, ← hget]
    exact mem_keys_iff.mp hother
  have hsub : (r.unregister key).keys.Sublist r.keys := by
    rw [keys_unregister]
    exact List.erase_sublist
  exact ⟨h.nodup.sublist hsub, hget, h.pairwise_concat hsub hlive⟩

end Reflects

/-- From an empty registry on, every step keeps it so. -/
theorem reflects_after (steps : List Step) : Reflects steps (after steps) := by
  induction steps using List.reverseRecOn with
  | nil => exact ⟨List.nodup_nil, fun _ => rfl, .nil⟩
  | append_singleton steps s ih =>
    rw [after_concat]
    cases s with
    | register key mapping => exact ih.register key mapping
    | unregister key =>
      rw [Step.run, remove_eq]
      exact ih.unregister key

/-- A registry is a map that keeps the order of entry: what it answers is told by the steps that
have made it. -/
structure InsertionOrdered (steps : List Step) (r : Registry) : Prop extends Reflects steps r where
  mem_keys : ∀ key, key ∈ r.keys ↔ live steps key = true
  removes : ∀ key, ((Step.unregister key).run r).1 = some (live steps key)
  size_eq : (r.size : ℕ∞) = {key | live steps key = true}.encard
  /-- All mappings are listed as their keys are. -/
  all_eq : r.all.map some = r.keys.map (current? steps)
  entered : ∀ key, live steps key = true → ∃! i, EnteredAt steps key i
  /-- A key that is registered again keeps its place. -/
  keeps_place : ∀ key ∈ r.keys, ∀ mapping, (r.register key mapping).keys = r.keys
  /-- A key that is taken out and registered again comes last. -/
  comes_last : ∀ key mapping,
    ((r.unregister key).register key mapping).keys = r.keys.erase key ++ [key]

/-- Whatever is registered and taken out, the registry is a map that keeps the order of entry. -/
theorem insertionOrdered_after (steps : List Step) : InsertionOrdered steps (after steps) where
  toReflects := reflects_after steps
  mem_keys _ := (reflects_after steps).mem_keys_iff_live
  removes key := by
    rw [Step.run, remove_eq, contains_eq, (reflects_after steps).get?_eq, live]
  size_eq := by
    rw [size_eq_encard (reflects_after steps).nodup]
    simp only [(reflects_after steps).mem_keys_iff_live]
  all_eq := by
    rw [map_some_all (reflects_after steps).nodup]
    exact List.map_congr_left fun key _ => (reflects_after steps).get?_eq key
  entered key hlive := by
    obtain ⟨i, hi⟩ := exists_enteredAt hlive
    exact ⟨i, hi, fun j hj => hj.unique hi⟩
  keeps_place _ hkey mapping := keys_register_of_mem hkey mapping
  comes_last key mapping := by
    have hout : key ∉ ((after steps).unregister key).keys := by
      rw [keys_unregister, (reflects_after steps).nodup.mem_erase_iff]
      exact fun h => h.1 rfl
    rw [keys_register_of_not_mem hout, keys_unregister]

/-- An order is registered twice and keeps its place; a customer is taken out and comes last. -/
example :
    (after [.register "order" (.empty "order" "order"),
      .register "customer" (.empty "customer" "customer"),
      .register "refund" (.empty "refund" "refund"),
      .register "order" (.empty "order_v2" "order"), .unregister "customer",
      .register "customer" (.empty "customer" "customer")]).all.map Mapping.index =
      ["order_v2", "refund", "customer"] := by decide

end Registry

end DocumentSearch
