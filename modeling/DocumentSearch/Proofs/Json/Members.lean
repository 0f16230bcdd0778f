import DocumentSearch.Json.Basic

/-!
# Looking members up

What is found among the members of an object, and when two ways of putting members in come to the
same. None of it needs the members to be sorted: a member that is put in comes before any other with
its name.
-/

namespace DocumentSearch

namespace Members

variable {α : Type}

theorem find?_insert (members : Members α) (name : String) (value : α) (other : String) :
    find? (members.insert name value) other =
      if name = other then some value else find? members other := by
  induction members with
  | nil => rfl
  | cons entry rest ih =>
    obtain ⟨k, v⟩ := entry
    rw [insert]
    by_cases hname : k = name
    · subst hname
      by_cases hother : k = other <;> simp [find?, hother]
    · by_cases hbefore : name < k
      · simp [hname, hbefore, find?]
      · simp only [hname, hbefore, if_false, find?, ih]
        by_cases hother : k = other
        · have hne : name ≠ other := fun h => hname (hother.trans h.symm)
          simp [hother, hne]
        · simp [hother]

theorem mem_of_find?_eq_some {members : Members α} {name : String} {value : α}
    (h : find? members name = some value) : (name, value) ∈ members := by
  induction members with
  | nil => cases h
  | cons entry rest ih =>
    rw [find?] at h
    split at h
    next hname =>
      obtain rfl := Option.some.inj h
      exact hname ▸ List.mem_cons_self
    next => exact List.mem_cons_of_mem entry (ih h)

theorem isSome_find?_iff {members : Members α} {name : String} :
    (find? members name).isSome ↔ name ∈ members.map Prod.fst := by
  induction members with
  | nil => simp [find?]
  | cons entry rest ih =>
    rw [find?, List.map_cons, List.mem_cons, ← ih]
    by_cases h : entry.1 = name
    · simp [h]
    · simp [h, Ne.symm h]

/-- Of two values under one name, the one that is put in last stays. -/
theorem insert_insert (members : Members α) (name : String) (first value : α) :
    (members.insert name first).insert name value = members.insert name value := by
  induction members with
  | nil => simp [insert]
  | cons entry rest ih =>
    rw [insert, insert]
    by_cases hname : entry.1 = name
    · simp [hname, insert]
    by_cases hbefore : name < entry.1
    · simp [hname, hbefore, insert]
    · simp [hname, hbefore, insert, ih]

/-- It makes no difference which of two names is put in first. Where the names stand, to each other
and to the first member, decides the same for both orders. -/
theorem insert_comm (members : Members α) {name other : String} (h : name ≠ other) (v w : α) :
    (members.insert name v).insert other w = (members.insert other w).insert name v := by
  induction members with
  | nil => grind [insert]
  | cons entry rest ih => grind [insert]

theorem find?_foldl_insert (entries : List (String × α)) (members : Members α) (name : String) :
    find? (entries.foldl (fun ms e => ms.insert e.1 e.2) members) name =
      (find? (ofList entries) name).or (find? members name) := by
  rw [ofList]
  induction entries generalizing members with
  | nil => rfl
  | cons entry rest ih =>
    rw [List.foldl_cons, List.foldl_cons, ih (members.insert entry.1 entry.2),
      ih (empty.insert entry.1 entry.2), find?_insert, find?_insert, Option.or_assoc]
    by_cases h : entry.1 = name <;> simp [h, empty, find?]

/-- Later entries come first. -/
theorem find?_ofList_append (first others : List (String × α)) (name : String) :
    find? (ofList (first ++ others)) name =
      (find? (ofList others) name).or (find? (ofList first) name) := by
  rw [ofList, List.foldl_append, find?_foldl_insert]
  rfl

theorem find?_ofList_nil (name : String) : find? (ofList ([] : List (String × α))) name = none :=
  rfl

theorem find?_ofList_cons (entry : String × α) (rest : List (String × α)) (name : String) :
    find? (ofList (entry :: rest)) name =
      (find? (ofList rest) name).or (if entry.1 = name then some entry.2 else none) := by
  rw [← List.singleton_append, find?_ofList_append]
  rfl

theorem find?_ofList_of_ne {entries : List (String × α)} {name : String}
    (h : ∀ entry ∈ entries, entry.1 ≠ name) : find? (ofList entries) name = none := by
  induction entries with
  | nil => rfl
  | cons entry rest ih =>
    have hrest := ih fun other hother => h other (List.mem_cons_of_mem entry hother)
    rw [find?_ofList_cons, hrest, if_neg (h entry List.mem_cons_self), Option.or_none]

/-- What is found among some entries is found when others are written around them. -/
theorem find?_ofList_framed (entries : List (String × α)) {before others : List (String × α)}
    {name : String} (hbefore : ∀ entry ∈ before, entry.1 ≠ name)
    (hothers : ∀ entry ∈ others, entry.1 ≠ name) :
    find? (ofList (before ++ entries ++ others)) name = find? (ofList entries) name := by
  rw [find?_ofList_append, find?_ofList_append, find?_ofList_of_ne hbefore,
    find?_ofList_of_ne hothers, Option.none_or, Option.or_none]

/-! ### Sorted members -/

/-- Members in the order in which they are kept, each name once. -/
def Sorted (members : Members α) : Prop := members.Pairwise fun a b => a.1 < b.1

theorem Sorted.nodup {members : Members α} (h : Sorted members) :
    (members.map Prod.fst).Nodup := by
  rw [List.Nodup, List.pairwise_map]
  refine h.imp ?_
  intro a b hlt heq
  exact String.lt_irrefl _ (heq ▸ hlt)

theorem mem_insert {members : Members α} {name : String} {value : α} {e : String × α}
    (h : e ∈ members.insert name value) : e = (name, value) ∨ e ∈ members := by
  induction members with
  | nil => exact .inl (List.mem_singleton.mp h)
  | cons entry rest ih =>
    rw [insert] at h
    split at h
    · exact (List.mem_cons.mp h).imp_right (List.mem_cons_of_mem entry)
    split at h
    · exact List.mem_cons.mp h
    · rcases List.mem_cons.mp h with rfl | h
      · exact .inr List.mem_cons_self
      · exact (ih h).imp_right (List.mem_cons_of_mem entry)

theorem Sorted.insert {members : Members α} (h : Sorted members) (name : String) (value : α) :
    Sorted (members.insert name value) := by
  induction members with
  | nil => exact List.pairwise_singleton _ _
  | cons entry rest ih =>
    obtain ⟨hfirst, hrest⟩ := List.pairwise_cons.mp h
    rw [Members.insert]
    split
    next heq =>
      subst heq
      exact List.pairwise_cons.mpr ⟨hfirst, hrest⟩
    split
    next hbefore =>
      refine List.pairwise_cons.mpr ⟨List.forall_mem_cons.mpr ⟨hbefore, fun e he => ?_⟩, h⟩
      exact String.lt_trans hbefore (hfirst e he)
    next hne hafter =>
      refine List.pairwise_cons.mpr ⟨fun e he => ?_, ih hrest⟩
      rcases mem_insert he with rfl | he
      · exact Std.lt_of_le_of_ne (String.not_lt.mp hafter) hne
      · exact hfirst e he

/-- Whatever is spelled, the members are kept in their order. -/
theorem sorted_ofList (entries : List (String × α)) : Sorted (ofList entries) := by
  have hfold : ∀ members : Members α, Sorted members →
      Sorted (entries.foldl (fun ms e => ms.insert e.1 e.2) members) := by
    induction entries with
    | nil => exact fun _ h => h
    | cons e rest ih => exact fun members h => ih _ (h.insert e.1 e.2)
  exact hfold empty List.Pairwise.nil

theorem mem_of_mem_ofList {entries : List (String × α)} {e : String × α} (h : e ∈ ofList entries) :
    e ∈ entries := by
  have hfold : ∀ members : Members α, e ∈ entries.foldl (fun ms e => ms.insert e.1 e.2) members →
      e ∈ members ∨ e ∈ entries := by
    clear h
    induction entries with
    | nil => exact fun _ h => .inl h
    | cons entry rest ih =>
      intro members h
      rcases ih _ h with h | h
      · rcases mem_insert h with rfl | h
        · exact .inr List.mem_cons_self
        · exact .inl h
      · exact .inr (List.mem_cons_of_mem entry h)
  exact (hfold empty h).resolve_left List.not_mem_nil

theorem insert_of_last {members : Members α} {name : String} (value : α)
    (h : ∀ e ∈ members, e.1 < name) : members.insert name value = members ++ [(name, value)] := by
  induction members with
  | nil => rfl
  | cons entry rest ih =>
    rw [List.forall_mem_cons] at h
    have hne : entry.1 ≠ name := fun heq => String.lt_irrefl _ (heq ▸ h.1)
    rw [insert, if_neg hne, if_neg (String.lt_asymm h.1), ih h.2]
    rfl

/-- Members that are in their order are kept as they come. -/
theorem Sorted.ofList_eq {members : Members α} (h : Sorted members) : ofList members = members := by
  have hfold : ∀ done : Members α, Sorted (done ++ members) →
      members.foldl (fun ms e => ms.insert e.1 e.2) done = done ++ members := by
    clear h
    induction members with
    | nil => exact fun done _ => (List.append_nil done).symm
    | cons e rest ih =>
      intro done h
      have hbefore : ∀ d ∈ done, d.1 < e.1 := fun d hd =>
        (List.pairwise_append.mp h).2.2 d hd e List.mem_cons_self
      rw [List.foldl_cons, insert_of_last e.2 hbefore, ih _ (by simpa using h), List.append_assoc]
      rfl
  exact hfold empty h

end Members

namespace Json

theorem get?_ofMembers_nil (name : String) : (ofMembers []).get? name = none := rfl

theorem get?_ofMembers_cons (entry : String × Json) (rest : List (String × Json)) (name : String) :
    (ofMembers (entry :: rest)).get? name =
      ((ofMembers rest).get? name).or (if entry.1 = name then some entry.2 else none) :=
  Members.find?_ofList_cons entry rest name

end Json

end DocumentSearch
