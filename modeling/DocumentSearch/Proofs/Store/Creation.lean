import DocumentSearch.Proofs.Engine.Round
import DocumentSearch.Proofs.Json.Values
import DocumentSearch.Store.Indexes
import Mathlib.Data.Finset.Card
import Mathlib.Data.Set.Insert

/-!
# Creating the indexes of a registry

The mappings of a registry are gone through one after the other, and each finds the indexes that
those before it have made. Two of them may share an index; then the second finds what the first has
made. `Creates` says once what the pass can do at a mapping, and everything else is read off it:
which indexes there are at the end, how many were made, and in which order the calls come.
-/

namespace DocumentSearch

/-! ### The indexes of an engine -/

/-- The indexes after a call, when there were `indexes` before it. -/
def Call.indexesAfter (indexes : Set String) : Call → Set String
  | .indexCreate index _ => insert index indexes
  | .indexDelete index => indexes \ {index}
  | _ => indexes

/-- The indexes after some calls, when there were `indexes` before them. -/
def indexesAfter (indexes : Set String) (calls : List Call) : Set String :=
  calls.foldl Call.indexesAfter indexes

namespace Engine

def indexSet (e : Engine) : Set String := {index | index ∈ e.indexes}

theorem indexSet_addIndex (e : Engine) (index : String) :
    (e.addIndex index).indexSet = insert index e.indexSet := by
  unfold addIndex
  split
  next hfound =>
    have hmem : index ∈ e.indexSet := hfound
    exact (Set.insert_eq_of_mem hmem).symm
  next => simp [indexSet, Set.ext_iff, or_comm]

theorem indexSet_removeIndex (e : Engine) (index : String) :
    (e.removeIndex index).indexSet = e.indexSet \ {index} := by
  simp [indexSet, removeIndex, Set.ext_iff]

/-- The engine when an index call has arrived and is answered. -/
def managed (e : Engine) : Call → Engine
  | .indexCreate index body => (e.noted (.indexCreate index body)).addIndex index
  | .indexDelete index => (e.noted (.indexDelete index)).removeIndex index
  | c => e.noted c

theorem plans_managed (e : Engine) (c : Call) : (e.managed c).plans = e.plans := by
  cases c with
  | indexCreate index body =>
    rw [managed, addIndex]
    split <;> rfl
  | _ => rfl

theorem calls_managed (e : Engine) (c : Call) : (e.managed c).calls = e.calls ++ [c] := by
  cases c with
  | indexCreate index body =>
    rw [managed, addIndex]
    split <;> rfl
  | _ => rfl

theorem indexSet_managed (e : Engine) (c : Call) :
    (e.managed c).indexSet = c.indexesAfter e.indexSet := by
  cases c with
  | indexCreate index body => exact indexSet_addIndex (e.noted _) index
  | indexDelete index => exact indexSet_removeIndex (e.noted _) index
  | _ => rfl

/-- The engine when these index calls have arrived and are answered. -/
def managedAll (e : Engine) (calls : List Call) : Engine := calls.foldl managed e

theorem plans_managedAll (e : Engine) (calls : List Call) :
    (e.managedAll calls).plans = e.plans := by
  induction calls generalizing e with
  | nil => rfl
  | cons c rest ih => exact (ih (e.managed c)).trans (e.plans_managed c)

theorem calls_managedAll (e : Engine) (calls : List Call) :
    (e.managedAll calls).calls = e.calls ++ calls := by
  induction calls generalizing e with
  | nil => exact (List.append_nil _).symm
  | cons c rest ih =>
    rw [List.append_cons, ← calls_managed]
    exact ih (e.managed c)

theorem indexSet_managedAll (e : Engine) (calls : List Call) :
    (e.managedAll calls).indexSet = indexesAfter e.indexSet calls := by
  induction calls generalizing e with
  | nil => rfl
  | cons c rest ih =>
    rw [indexesAfter, List.foldl_cons, ← indexSet_managed]
    exact ih (e.managed c)

end Engine

/-! ### Actions that manage indexes -/

namespace Action

variable {α β : Type} {x : Action α} {f : α → Action β} {h : Host} {a : α} {b : β}
  {calls others : List Call}

/-- The action ends with this value, and these index calls are all it does to the engine. -/
def Manages (x : Action α) (h : Host) (a : α) (calls : List Call) : Prop :=
  ∃ log folder, x h = (.ok a, ⟨h.engine.managedAll calls, log, folder⟩)

theorem Manages.thenDo (hx : x.Manages h a calls)
    (hf : ∀ h' : Host, h'.engine = h.engine.managedAll calls → (f a).Manages h' b others) :
    (x.thenDo f).Manages h b (calls ++ others) := by
  obtain ⟨log, folder, hx⟩ := hx
  obtain ⟨log', folder', hf⟩ := hf ⟨h.engine.managedAll calls, log, folder⟩ rfl
  refine ⟨log', folder', ?_⟩
  rw [Action.thenDo, hx]
  dsimp only
  rw [hf, Engine.managedAll, Engine.managedAll, Engine.managedAll, List.foldl_append]

theorem manages_done (h : Host) (a : α) : (done a).Manages h a [] := ⟨h.log, h.folder, rfl⟩

theorem Manages.map (hx : x.Manages h a calls) (f : α → β) :
    (x.map f).Manages h (f a) calls := by
  have hmap : (x.map f).Manages h (f a) (calls ++ []) :=
    hx.thenDo fun h' _ => manages_done h' (f a)
  rwa [List.append_nil] at hmap

theorem Manages.observed (hx : x.Manages h a calls) (op : StoreOperation) :
    (Action.observed op x).Manages h a calls := by
  obtain ⟨log, folder, hx⟩ := hx
  refine ⟨log ++ [.operation op true], folder, ?_⟩
  rw [Action.observed, hx]
  rfl

end Action

namespace Store

open DocumentSearch.Action (Manages)

section Steps

variable {h : Host}

theorem indexExists_manages (hplans : h.engine.plans = []) (index : String) :
    (indexExists index).Manages h (h.engine.hasIndex index) [.indexExists index] := by
  refine ⟨h.log, h.folder, ?_⟩
  rw [indexExists, Action.call, Engine.indexExists, Engine.call_of_no_plans hplans]
  rfl

theorem indexDelete_manages (hplans : h.engine.plans = []) (index : String) :
    (dropIndex index).Manages h () [.indexDelete index] := by
  refine ⟨h.log ++ [.indexOperation .drop true], h.folder, ?_⟩
  simp only [dropIndex, tracked, Action.call, Engine.indexDelete, Engine.call_of_no_plans hplans]
  rfl

theorem indexCreate_manages (hplans : h.engine.plans = []) (index body : String) :
    (tracked .create fun e => e.indexCreate index body).Manages h () [.indexCreate index body] := by
  refine ⟨h.log ++ [.indexOperation .create true], h.folder, ?_⟩
  simp only [tracked, Action.call, Engine.indexCreate, Engine.call_of_no_plans hplans]
  rfl

theorem indexAlias_manages (hplans : h.engine.plans = []) (body : String) :
    (tracked .addAlias fun e => e.indexAlias body).Manages h () [.indexAlias body] := by
  refine ⟨h.log ++ [.indexOperation .addAlias true], h.folder, ?_⟩
  simp only [tracked, Action.call, Engine.indexAlias, Engine.call_of_no_plans hplans]
  rfl

theorem leaveBody_manages (c : StoreConfig) (index body : String) :
    (leaveBody c index body).Manages h () [] := by
  unfold leaveBody Manages
  cases c.mappingDir <;> exact ⟨_, _, rfl⟩

end Steps

/-! ### One mapping -/

/-- The name of the index that stands behind a mapping. The index name of the mapping itself becomes
its alias. -/
def physicalIndex (c : StoreConfig) (m : Mapping) : String := m.index ++ c.indexVersionSuffix

/-- One action: the index of this name gets the alias `name`. -/
def aliasing (index name : String) : Json :=
  .object [("actions", .array [.object [("add",
    .object [("alias", .string name), ("index", .string index)])]])]

/-- The calls that make the index of a mapping, when there is none of its name. -/
def freshCalls (c : StoreConfig) (m : Mapping) : List Call :=
  [.indexCreate (physicalIndex c m) m.indexBody.writeIndented,
    .indexAlias (aliasing (physicalIndex c m) m.index).write]

/-- The calls that follow when the index of a mapping is found, or is not. -/
def laterCalls (c : StoreConfig) (m : Mapping) (found : Bool) : List Call :=
  if found then
    if c.dropCreateIndexes then .indexDelete (physicalIndex c m) :: freshCalls c m else []
  else freshCalls c m

theorem aliasBody_eq (index name : String) : aliasBody index name = aliasing index name := by
  have hnames : "alias" < "index" := by decide
  rw [aliasBody, aliasing]
  simp only [Json.ofMembers, Members.ofList, Members.empty, List.foldl_cons, List.foldl_nil,
    Members.insert, hnames, String.reduceEq, if_true, if_false]

section Mappings

variable {h : Host} {c : StoreConfig} {m : Mapping}

theorem createFresh_manages (hplans : h.engine.plans = []) :
    (createFresh (physicalIndex c m) (some m.index) m.indexBody.writeIndented).Manages h true
      (freshCalls c m) := by
  rw [freshCalls, ← aliasBody_eq]
  refine (indexCreate_manages hplans _ _).thenDo fun h' heq => ?_
  have hplans' : h'.engine.plans = [] := by rw [heq, Engine.plans_managedAll, hplans]
  exact (indexAlias_manages hplans' _).thenDo fun h'' _ => Action.manages_done h'' true

theorem createFound_manages (hplans : h.engine.plans = []) (found : Bool) :
    Manages
      (if found then
        if c.dropCreateIndexes then
          (dropIndex (physicalIndex c m)).thenDo fun _ =>
            createFresh (physicalIndex c m) (some m.index) m.indexBody.writeIndented
        else .done false
      else createFresh (physicalIndex c m) (some m.index) m.indexBody.writeIndented)
      h (!found || c.dropCreateIndexes) (laterCalls c m found) := by
  unfold laterCalls
  cases found with
  | false => exact createFresh_manages hplans
  | true =>
    cases c.dropCreateIndexes with
    | false => exact Action.manages_done h false
    | true =>
      refine (indexDelete_manages hplans (physicalIndex c m)).thenDo fun h' heq => ?_
      exact createFresh_manages (by rw [heq, Engine.plans_managedAll, hplans])

/-- What a pass does at one mapping. -/
theorem createMapped_manages (hplans : h.engine.plans = []) {found : Bool}
    (hfound : h.engine.hasIndex (physicalIndex c m) = found) :
    (createMapped c m).Manages h (!found || c.dropCreateIndexes)
      (.indexExists (physicalIndex c m) :: laterCalls c m found) := by
  refine (leaveBody_manages c _ _).thenDo fun h' heq => ?_
  have hengine : h'.engine = h.engine := heq
  rw [← hengine] at hplans hfound
  rw [← hfound]
  refine Manages.observed ?_ .createIndex
  refine (indexExists_manages hplans _).thenDo fun h'' heq' => ?_
  exact createFound_manages (by rw [heq', Engine.plans_managedAll, hplans]) _

end Mappings

/-! ### A pass over mappings -/

/-- What a pass over mappings does when there are `indexes` before it: the indexes of `made` are
made, with these calls. -/
inductive Creates (c : StoreConfig) :
    Set String → List Mapping → List Mapping → List Call → Prop where
  | done (indexes : Set String) : Creates c indexes [] [] []
  | kept {indexes : Set String} {m : Mapping} {ms made : List Mapping} {calls : List Call}
      (hkeep : c.dropCreateIndexes = false) (hfound : physicalIndex c m ∈ indexes)
      (hrest : Creates c indexes ms made calls) :
      Creates c indexes (m :: ms) made ([.indexExists (physicalIndex c m)] ++ calls)
  | replaced {indexes : Set String} {m : Mapping} {ms made : List Mapping} {calls : List Call}
      (hdrop : c.dropCreateIndexes = true) (hfound : physicalIndex c m ∈ indexes)
      (hrest : Creates c indexes ms made calls) :
      Creates c indexes (m :: ms) (m :: made)
        (.indexExists (physicalIndex c m) :: .indexDelete (physicalIndex c m) ::
          freshCalls c m ++ calls)
  | fresh {indexes : Set String} {m : Mapping} {ms made : List Mapping} {calls : List Call}
      (hnew : physicalIndex c m ∉ indexes)
      (hrest : Creates c (insert (physicalIndex c m) indexes) ms made calls) :
      Creates c indexes (m :: ms) (m :: made)
        (.indexExists (physicalIndex c m) :: freshCalls c m ++ calls)

theorem indexesAfter_append (indexes : Set String) (calls others : List Call) :
    indexesAfter indexes (calls ++ others) = indexesAfter (indexesAfter indexes calls) others :=
  List.foldl_append

theorem indexesAfter_fresh (c : StoreConfig) (m : Mapping) (indexes : Set String) :
    indexesAfter indexes (.indexExists (physicalIndex c m) :: freshCalls c m) =
      insert (physicalIndex c m) indexes := rfl

/-- An index that is deleted and made again is there before and after. -/
theorem indexesAfter_replaced {c : StoreConfig} {m : Mapping} {indexes : Set String}
    (hfound : physicalIndex c m ∈ indexes) :
    indexesAfter indexes (.indexExists (physicalIndex c m) :: .indexDelete (physicalIndex c m) ::
      freshCalls c m) = indexes := by
  have hback : insert (physicalIndex c m) (indexes \ {physicalIndex c m}) = indexes := by
    rw [Set.insert_sdiff_singleton, Set.insert_eq_of_mem hfound]
  exact hback

/-- A pass over one more mapping: the rest begins with the indexes that the calls for this one
leave. -/
theorem createEach_cons_manages {c : StoreConfig} {m : Mapping} {ms : List Mapping} {h : Host}
    {created : Bool} {n : Nat} {calls others : List Call} (hplans : h.engine.plans = [])
    (hmapped : (createMapped c m).Manages h created calls)
    (hrest : ∀ h' : Host, h'.engine.plans = [] →
      h'.engine.indexSet = indexesAfter h.engine.indexSet calls →
      (createEach c ms).Manages h' n others) :
    (createEach c (m :: ms)).Manages h (n + if created then 1 else 0) (calls ++ others) := by
  refine hmapped.thenDo fun h' heq => ?_
  refine (hrest h' ?_ ?_).map fun n => n + if created then 1 else 0
  · rw [heq, Engine.plans_managedAll, hplans]
  · rw [heq, Engine.indexSet_managedAll]

/-- A pass with no plans goes through and does as `Creates` says, on every host with these
indexes alike. -/
theorem createEach_manages (c : StoreConfig) (ms : List Mapping) (indexes : Set String) :
    ∃ made calls, Creates c indexes ms made calls ∧
      ∀ h : Host, h.engine.plans = [] → h.engine.indexSet = indexes →
        (createEach c ms).Manages h made.length calls := by
  induction ms generalizing indexes with
  | nil => exact ⟨[], [], .done indexes, fun h _ _ => Action.manages_done h 0⟩
  | cons m ms ih =>
    by_cases hfound : physicalIndex c m ∈ indexes
    · obtain ⟨made, others, hcreates, hrest⟩ := ih indexes
      cases hdrop : c.dropCreateIndexes with
      | false =>
        refine ⟨made, _, .kept hdrop hfound hcreates, fun h hplans hindexes => ?_⟩
        have hmapped := createMapped_manages hplans (decide_eq_true (hindexes ▸ hfound))
        rw [hdrop, laterCalls, hdrop] at hmapped
        exact createEach_cons_manages hplans hmapped fun h' hplans' hindexes' =>
          hrest h' hplans' (hindexes'.trans hindexes)
      | true =>
        refine ⟨m :: made, _, .replaced hdrop hfound hcreates, fun h hplans hindexes => ?_⟩
        have hmapped := createMapped_manages hplans (decide_eq_true (hindexes ▸ hfound))
        rw [hdrop, laterCalls, hdrop] at hmapped
        refine createEach_cons_manages hplans hmapped fun h' hplans' hindexes' =>
          hrest h' hplans' ?_
        rw [hindexes', hindexes]
        exact indexesAfter_replaced hfound
    · obtain ⟨made, others, hcreates, hrest⟩ := ih (insert (physicalIndex c m) indexes)
      refine ⟨m :: made, _, .fresh hfound hcreates, fun h hplans hindexes => ?_⟩
      have hmapped := createMapped_manages hplans (decide_eq_false (hindexes ▸ hfound))
      rw [laterCalls] at hmapped
      refine createEach_cons_manages hplans hmapped fun h' hplans' hindexes' =>
        hrest h' hplans' ?_
      rw [hindexes', hindexes]
      exact indexesAfter_fresh c m indexes

/-! ### What a pass leaves -/

namespace Creates

variable {c : StoreConfig} {indexes : Set String} {ms made : List Mapping} {calls : List Call}

theorem union_insert_cons (indexes : Set String) (m : Mapping) (ms : List Mapping) :
    indexes ∪ {index | index ∈ (m :: ms).map (physicalIndex c)} =
      insert (physicalIndex c m) indexes ∪ {index | index ∈ ms.map (physicalIndex c)} := by
  ext index
  simp only [List.map_cons, List.mem_cons, Set.mem_union, Set.mem_insert_iff, Set.mem_ofPred_eq]
  tauto

/-- At the end there are the indexes that were there, and one for every mapping. -/
theorem indexesAfter_eq (h : Creates c indexes ms made calls) :
    indexesAfter indexes calls = indexes ∪ {index | index ∈ ms.map (physicalIndex c)} := by
  induction h with
  | done => simp [indexesAfter]
  | kept _ hfound _ ih =>
    rw [union_insert_cons, Set.insert_eq_of_mem hfound]
    exact ih
  | replaced _ hfound _ ih =>
    rw [union_insert_cons, Set.insert_eq_of_mem hfound, ← ih, indexesAfter_append,
      indexesAfter_replaced hfound]
  | fresh _ _ ih =>
    rw [union_insert_cons, ← ih, indexesAfter_append, indexesAfter_fresh]

theorem sublist (h : Creates c indexes ms made calls) : made.Sublist ms := by
  induction h with
  | done => exact .slnil
  | kept _ _ _ ih => exact ih.cons _
  | replaced _ _ _ ih => exact ih.cons_cons _
  | fresh _ _ ih => exact ih.cons_cons _

theorem made_eq_of_drop (h : Creates c indexes ms made calls)
    (hdrop : c.dropCreateIndexes = true) : made = ms := by
  induction h with
  | done => rfl
  | kept hkeep => exact absurd (hkeep.symm.trans hdrop) Bool.false_ne_true
  | replaced _ _ _ ih => rw [ih]
  | fresh _ _ ih => rw [ih]

/-- What is made is made in order, and each index is followed by its alias before the next. -/
theorem filter_eq_flatMap (h : Creates c indexes ms made calls) :
    (calls.filter fun call => call.method ∈ [.indexCreate, .indexAlias]) =
      made.flatMap (freshCalls c) := by
  induction h with
  | done => rfl
  | kept _ _ _ ih => exact ih
  | replaced _ _ _ ih =>
    rw [List.filter_append, ih]
    rfl
  | fresh _ _ ih =>
    rw [List.filter_append, ih]
    rfl

section Keeping

variable (hkeep : c.dropCreateIndexes = false)
include hkeep

theorem mem_made_iff (h : Creates c indexes ms made calls) (index : String) :
    index ∈ made.map (physicalIndex c) ↔
      index ∈ ms.map (physicalIndex c) ∧ index ∉ indexes := by
  induction h with
  | done => simp
  | kept _ hfound _ ih =>
    rw [ih, List.map_cons, List.mem_cons]
    refine and_congr_left fun hnot => (or_iff_right ?_).symm
    rintro rfl
    exact hnot hfound
  | replaced hdrop => exact absurd (hkeep.symm.trans hdrop) Bool.false_ne_true
  | @fresh indexes m _ _ _ hnew _ ih =>
    rw [List.map_cons, List.map_cons, List.mem_cons, List.mem_cons, ih, Set.mem_insert_iff]
    by_cases heq : index = physicalIndex c m
    · subst heq
      simp [hnew]
    · simp [heq]

/-- No index is made twice: the second mapping that wants it finds it. -/
theorem nodup_made (h : Creates c indexes ms made calls) :
    (made.map (physicalIndex c)).Nodup := by
  induction h with
  | done => exact .nil
  | kept _ _ _ ih => exact ih
  | replaced hdrop => exact absurd (hkeep.symm.trans hdrop) Bool.false_ne_true
  | fresh _ hrest ih =>
    rw [List.map_cons, List.nodup_cons, mem_made_iff hkeep hrest]
    exact ⟨fun hmem => hmem.2 (Set.mem_insert _ _), ih⟩

theorem length_made (h : Creates c indexes ms made calls) {found : List String}
    (hfound : ∀ index, index ∈ found ↔ index ∈ indexes) :
    made.length = ((ms.map (physicalIndex c)).toFinset \ found.toFinset).card := by
  have hset : (made.map (physicalIndex c)).toFinset =
      (ms.map (physicalIndex c)).toFinset \ found.toFinset := by
    ext index
    rw [List.mem_toFinset, mem_made_iff hkeep h, Finset.mem_sdiff, List.mem_toFinset,
      List.mem_toFinset, hfound]
  rw [← hset, List.toFinset_card_of_nodup (nodup_made hkeep h), List.length_map]

theorem not_delete (h : Creates c indexes ms made calls) (index : String) :
    .indexDelete index ∉ calls := by
  induction h with
  | done => simp
  | kept _ _ _ ih => simp [ih]
  | replaced hdrop => exact absurd (hkeep.symm.trans hdrop) Bool.false_ne_true
  | fresh _ _ ih => simp [freshCalls, ih]

/-- A pass that finds every index asks for each and makes none. -/
theorem of_all_found (h : Creates c indexes ms made calls)
    (hfound : ∀ m ∈ ms, physicalIndex c m ∈ indexes) :
    made = [] ∧ calls = (ms.map (physicalIndex c)).map .indexExists := by
  induction h with
  | done => exact ⟨rfl, rfl⟩
  | kept _ _ _ ih =>
    obtain ⟨hmade, hcalls⟩ := ih fun m hm => hfound m (List.mem_cons_of_mem _ hm)
    exact ⟨hmade, by rw [hcalls]; rfl⟩
  | replaced hdrop => exact absurd (hkeep.symm.trans hdrop) Bool.false_ne_true
  | fresh hnew => exact absurd (hfound _ List.mem_cons_self) hnew

end Keeping

end Creates

/-! ### The order of the calls -/

theorem whole_aliasBody (index name : String) : (aliasBody index name).Whole := by
  refine .ofMembers (List.forall_mem_singleton.mpr ?_)
  refine .array _ (List.forall_mem_singleton.mpr ?_)
  refine .ofMembers (List.forall_mem_singleton.mpr ?_)
  exact .ofMembers (by simp [Json.Whole.string])

theorem embedsNothing_aliasBody (index name : String) : (aliasBody index name).EmbedsNothing := by
  refine .ofMembers (by simp [Json.embeddingName]) (List.forall_mem_singleton.mpr ?_)
  refine .array _ (List.forall_mem_singleton.mpr ?_)
  refine .ofMembers (by simp [Json.embeddingName]) (List.forall_mem_singleton.mpr ?_)
  exact .ofMembers (by simp [Json.embeddingName]) (by simp [Json.EmbedsNothing.string])

theorem nesting_aliasBody (index name : String) :
    ((aliasBody index name).toTree .compact 0).nesting ≤ 4 := by
  refine Json.nesting_ofMembers_le (List.forall_mem_singleton.mpr ?_)
  refine Json.nesting_array_le (List.forall_mem_singleton.mpr ?_)
  refine Json.nesting_ofMembers_le (List.forall_mem_singleton.mpr ?_)
  exact Json.nesting_ofMembers_le (by simp [Json.toTree, Json.Tree.nesting])

/-- The text reads as the one action that gives the index the alias `name`. -/
def AddsAlias (text index name : String) : Prop :=
  Json.read? (Utf8.symbols text) = some (aliasing index name)

theorem addsAlias_aliasing (index name : String) :
    AddsAlias (aliasing index name).write index name := by
  rw [AddsAlias, ← aliasBody_eq]
  exact Json.read?_symbols_write (whole_aliasBody index name) (embedsNothing_aliasBody index name)
    ((nesting_aliasBody index name).trans (by decide))

/-- What a call that deletes or makes an index needs, with the indexes there are before it and the
call that comes next. -/
def Call.InPlace (c : StoreConfig) (ms : List Mapping) (indexes : Set String)
    (next : Option Call) : Call → Prop
  | .indexDelete index => index ∈ indexes ∧ ∃ body, next = some (.indexCreate index body)
  | .indexCreate index body =>
    ∃ m ∈ ms, index = physicalIndex c m ∧ body = m.indexBody.writeIndented ∧
      ∃ text, next = some (.indexAlias text) ∧ AddsAlias text index m.index
  | _ => True

/-- Every call stands where it may. -/
def InOrder (c : StoreConfig) (ms : List Mapping) (indexes : Set String) (calls : List Call) :
    Prop :=
  ∀ k call, calls[k]? = some call →
    Call.InPlace c ms (indexesAfter indexes (calls.take k)) calls[k + 1]? call

section Order

variable {c : StoreConfig} {ms : List Mapping} {indexes : Set String} {calls : List Call}

theorem InOrder.cons {call : Call} (hplace : Call.InPlace c ms indexes calls[0]? call)
    (h : InOrder c ms (call.indexesAfter indexes) calls) :
    InOrder c ms indexes (call :: calls) := by
  intro k other hother
  cases k with
  | zero =>
    cases hother
    exact hplace
  | succ k => exact h k other hother

theorem InOrder.fresh {m : Mapping} (hm : m ∈ ms)
    (h : InOrder c ms (insert (physicalIndex c m) indexes) calls) :
    InOrder c ms indexes (freshCalls c m ++ calls) := by
  refine .cons ⟨m, hm, rfl, rfl, _, rfl, addsAlias_aliasing _ _⟩ ?_
  exact .cons trivial h

theorem Creates.inOrder {rest made : List Mapping} (h : Creates c indexes rest made calls)
    (hsub : rest ⊆ ms) : InOrder c ms indexes calls := by
  induction h with
  | done => exact fun k call hcall => by simp at hcall
  | kept _ _ _ ih => exact .cons trivial (ih (List.subset_of_cons_subset hsub))
  | @replaced indexes m _ _ _ _ hfound _ ih =>
    refine .cons trivial (.cons ⟨hfound, _, rfl⟩ (.fresh (hsub List.mem_cons_self) ?_))
    have hback : insert (physicalIndex c m) (indexes \ {physicalIndex c m}) = indexes := by
      rw [Set.insert_sdiff_singleton, Set.insert_eq_of_mem hfound]
    have hrest := ih (List.subset_of_cons_subset hsub)
    rw [← hback] at hrest
    exact hrest
  | fresh _ _ ih =>
    exact .cons trivial (.fresh (hsub List.mem_cons_self) (ih (List.subset_of_cons_subset hsub)))

end Order

/-! ### A registry -/

/-- The indexes behind the registered mappings, one for each mapping. -/
def indexNames (s : Store) : List String := s.registry.all.map (physicalIndex s.config)

/-- The indexes of a store are created: the engine has got these calls, and the indexes of `made`
are made by them. -/
structure Created (s : Store) (before after : Engine) (made : List Mapping) (calls : List Call) :
    Prop where
  calls_eq : after.calls = before.calls ++ calls
  indexes : after.indexSet = before.indexSet ∪ {index | index ∈ s.indexNames}
  inOrder : InOrder s.config s.registry.all before.indexSet calls
  /-- What is made is made in the order of the registry, every index together with its alias. -/
  making : (calls.filter fun call => call.method ∈ [.indexCreate, .indexAlias]) =
    made.flatMap (freshCalls s.config)
  registered : made.Sublist s.registry.all

theorem created_of_manages {s : Store} {h : Host} {made : List Mapping} {calls : List Call}
    (hcreates : Creates s.config h.engine.indexSet s.registry.all made calls)
    (hmanages : s.createIndexes.Manages h made.length calls) :
    ∃ h', s.createIndexes h = (.ok made.length, h') ∧ h'.engine.plans = h.engine.plans ∧
      s.Created h.engine h'.engine made calls := by
  obtain ⟨log, folder, hrun⟩ := hmanages
  refine ⟨_, hrun, h.engine.plans_managedAll calls, ?_⟩
  have hindexes : (h.engine.managedAll calls).indexSet =
      h.engine.indexSet ∪ {index | index ∈ s.indexNames} := by
    rw [Engine.indexSet_managedAll, hcreates.indexesAfter_eq]
    rfl
  exact ⟨h.engine.calls_managedAll calls, hindexes, hcreates.inOrder (List.Subset.refl _),
    hcreates.filter_eq_flatMap, hcreates.sublist⟩

/-- When every index is there and none is to be dropped, each is asked for and none is made. -/
theorem createIndexes_of_all_found {s : Store} (hkeep : s.config.dropCreateIndexes = false)
    {h : Host} (hplans : h.engine.plans = [])
    (hfound : ∀ index ∈ s.indexNames, index ∈ h.engine.indexSet) :
    ∃ h', s.createIndexes h = (.ok 0, h') ∧
      h'.engine.calls = h.engine.calls ++ s.indexNames.map .indexExists := by
  obtain ⟨made, calls, hcreates, hrun⟩ :=
    createEach_manages s.config s.registry.all h.engine.indexSet
  obtain ⟨rfl, rfl⟩ := hcreates.of_all_found hkeep fun m hm =>
    hfound _ (List.mem_map_of_mem hm)
  obtain ⟨h', hrun, -, hcreated⟩ := created_of_manages hcreates (hrun h hplans rfl)
  exact ⟨h', hrun, hcreated.calls_eq⟩

/-- Creating the indexes of a registry is complete and safe, and doing it again does nothing: at
the end there is an index for every mapping beside those that were there before; an index is only
deleted when it is there, to be made again at once, and is given its alias as soon as it is made.
Unless indexes are dropped, as many are made as were missing, none is deleted, and a second time
there is nothing to make. -/
theorem createIndexes_complete (s : Store) {h : Host} (hplans : h.engine.plans = []) :
    ∃ made calls h', s.createIndexes h = (.ok made.length, h') ∧
      s.Created h.engine h'.engine made calls ∧
      (s.config.dropCreateIndexes = true → made.length = s.registry.size) ∧
      (s.config.dropCreateIndexes = false →
        made.length = (s.indexNames.toFinset \ h.engine.indexes.toFinset).card ∧
        (∀ index, .indexDelete index ∉ calls) ∧
        ∃ h'', s.createIndexes h' = (.ok 0, h'') ∧
          h''.engine.calls = h'.engine.calls ++ s.indexNames.map .indexExists) := by
  obtain ⟨made, calls, hcreates, hrun⟩ :=
    createEach_manages s.config s.registry.all h.engine.indexSet
  obtain ⟨h', hrun, hplans', hcreated⟩ := created_of_manages hcreates (hrun h hplans rfl)
  refine ⟨made, calls, h', hrun, hcreated, fun hdrop => ?_, fun hkeep => ?_⟩
  · rw [hcreates.made_eq_of_drop hdrop]
    exact List.length_map _
  · refine ⟨Creates.length_made hkeep hcreates fun _ => Iff.rfl,
      Creates.not_delete hkeep hcreates, ?_⟩
    refine createIndexes_of_all_found hkeep (hplans'.trans hplans) fun index hindex => ?_
    rw [hcreated.indexes]
    exact .inr hindex

/-- Two mappings that share an index, and one whose index is there. -/
def sharedIndex (dropCreate : Bool) : Store where
  config := { StoreConfig.standard with dropCreateIndexes := dropCreate }
  registry :=
    ⟨[("order", .empty "order" "order"), ("refund", .empty "order" "refund"),
      ("customer", .empty "customer" "customer")]⟩

def customersOnly : Host := { Host.blank with engine := Engine.blank.addIndex "customer_v1" }

/-- For names without characters that need an escape. -/
def aliasText (index name : String) : String :=
  "\x7b\"actions\":[\x7b\"add\":\x7b\"alias\":\"" ++ name ++ "\",\"index\":\"" ++ index ++
    "\"\x7d\x7d]\x7d"

theorem createIndexes_complete_sharedIndex :
    customersOnly.engine.plans = [] ∧
      (∃ h', (sharedIndex false).createIndexes customersOnly = (.ok 1, h')) ∧
      ∃ h', (sharedIndex true).createIndexes customersOnly = (.ok 3, h') ∧
        (h'.engine.calls.filter fun call => call.method = .indexAlias) =
          [.indexAlias (aliasText "order_v1" "order"), .indexAlias (aliasText "order_v1" "order"),
            .indexAlias (aliasText "customer_v1" "customer")] := by
  have hplans : customersOnly.engine.plans = [] := rfl
  refine ⟨hplans, ?_, ?_⟩
  · obtain ⟨made, calls, h', hrun, -, -, hkeep⟩ := createIndexes_complete (sharedIndex false) hplans
    have hlength : made.length = 1 := (hkeep rfl).1.trans (by decide)
    exact ⟨h', hlength ▸ hrun⟩
  · obtain ⟨made, calls, h', hrun, hcreated, hdrop, -⟩ :=
      createIndexes_complete (sharedIndex true) hplans
    have hlength : made.length = 3 := hdrop rfl
    have hall : made = (sharedIndex true).registry.all :=
      hcreated.registered.eq_of_length hlength
    have hcalls : h'.engine.calls = calls := hcreated.calls_eq
    have haliases := congrArg (List.filter fun call => call.method = .indexAlias) hcreated.making
    rw [List.filter_filter, hall] at haliases
    refine ⟨h', hlength ▸ hrun, ?_⟩
    rw [hcalls]
    refine Eq.trans (List.filter_congr fun call _ => ?_) (haliases.trans ?_)
    · simp +contextual
    · decide +kernel

end Store

end DocumentSearch
