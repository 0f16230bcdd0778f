import DocumentSearch.Proofs.Clause.Blanking
import DocumentSearch.Proofs.Filter.Leaves

/-!
# Other values in the same filter

A filter is built by a program, the values in it come from elsewhere. `Filter.Exchanged` relates two
filters that a program builds alike for different values. Their conditions are found in lockstep: a
leaf that fails for one value fails for the other in the same way, and what a condition puts into
the scope around it has one shape for both. A value decides more than what it is compared with in
two places only, and `Exchanged` fixes both: a null asks that a property is missing, and a text
that is compared without regard to case makes a clause for each of its words.
-/

namespace DocumentSearch

/-! ### Results -/

/-- Both fail, for one reason, or both succeed, with what is the same to `shape`. -/
def SameBut {ε α β : Type} (shape : α → β) (x y : Except ε α) : Prop :=
  x.map shape = y.map shape

namespace SameBut

variable {ε α β γ δ : Type} {shape : α → β} {other : γ → δ} {x y : Except ε α}

theorem ok {a b : α} (h : shape a = shape b) :
    SameBut shape (Except.ok a : Except ε α) (Except.ok b) :=
  congrArg Except.ok h

theorem cases (h : SameBut shape x y) :
    (∃ e, x = .error e ∧ y = .error e) ∨
      ∃ a b, x = .ok a ∧ y = .ok b ∧ shape a = shape b := by
  cases x with
  | error e =>
    cases y with
    | error e' => exact .inl ⟨e, rfl, congrArg Except.error (Except.error.inj h).symm⟩
    | ok b => cases h
  | ok a =>
    cases y with
    | error e' => cases h
    | ok b => exact .inr ⟨a, b, rfl, rfl, Except.ok.inj h⟩

/-- Two runs stay in lockstep as long as neither looks past the shape. -/
theorem bind {k l : α → Except ε γ} (h : SameBut shape x y)
    (hnext : ∀ a b, shape a = shape b → SameBut other (k a) (l b)) :
    SameBut other (x >>= k) (y >>= l) := by
  obtain ⟨e, rfl, rfl⟩ | ⟨a, b, rfl, rfl, hab⟩ := h.cases
  · rfl
  · exact hnext a b hab

theorem bind_same {k l : α → Except ε γ} (x : Except ε α)
    (hnext : ∀ a, SameBut other (k a) (l a)) : SameBut other (x >>= k) (x >>= l) := by
  cases x with
  | error e => rfl
  | ok a => exact hnext a

theorem map {f g : α → γ} (h : SameBut shape x y)
    (hfg : ∀ a b, shape a = shape b → other (f a) = other (g b)) :
    SameBut other (x.map f) (y.map g) := by
  obtain ⟨e, rfl, rfl⟩ | ⟨a, b, rfl, rfl, hab⟩ := h.cases
  · rfl
  · exact ok (hfg a b hab)

theorem mapM {ι : Type} {f g : ι → Except ε α} {is js : List ι}
    (h : List.Forall₂ (fun i j => SameBut shape (f i) (g j)) is js) :
    SameBut (List.map shape) (is.mapM f) (js.mapM g) := by
  induction h with
  | nil => rfl
  | cons hfirst _ ih =>
    rw [List.mapM_cons, List.mapM_cons]
    apply hfirst.bind
    intro a b hab
    apply ih.bind
    intro as bs habs
    exact ok (by rw [List.map_cons, List.map_cons, hab, habs])

end SameBut

/-! ### Values -/

namespace Scalar

/-- Two values, both null or neither, that can both be written. -/
structure Exchanged (v w : Scalar) : Prop where
  isNull_eq : v.isNull = w.isNull
  finite_left : ∀ x, v = .numeric x → x.isFinite
  finite_right : ∀ x, w = .numeric x → x.isFinite

variable {v w : Scalar} {vs ws : List Scalar}

theorem exists_toJson (h : ∀ x, v = .numeric x → x.isFinite) :
    ∃ j, v.toJson = .ok j ∧ j.blanked true = .null := by
  cases v with
  | numeric x => exact ⟨.number (.float x), if_pos (h x rfl), rfl⟩
  | null | boolean _ | integer _ | text _ | timestamp _ => exact ⟨_, rfl, rfl⟩

theorem Exchanged.toJson (h : v.Exchanged w) :
    SameBut (Json.blanked true) v.toJson w.toJson := by
  obtain ⟨j, hj, hnull⟩ := exists_toJson h.finite_left
  obtain ⟨k, hk, hnull'⟩ := exists_toJson h.finite_right
  rw [hj, hk]
  exact .ok (hnull.trans hnull'.symm)

theorem allToJson_eq_mapM (vs : List Scalar) : allToJson vs = vs.mapM Scalar.toJson := by
  induction vs with
  | nil => rfl
  | cons v rest ih =>
    rw [allToJson, List.mapM_cons, ih]
    cases v.toJson with
    | error e => rfl
    | ok j => cases rest.mapM Scalar.toJson <;> rfl

theorem sameBut_allToJson (h : List.Forall₂ Exchanged vs ws) :
    SameBut (List.map (Json.blanked true)) (allToJson vs) (allToJson ws) := by
  rw [allToJson_eq_mapM, allToJson_eq_mapM]
  exact .mapM (h.imp fun _ _ => Exchanged.toJson)

end Scalar

inductive RangeBound.Exchanged : RangeBound → RangeBound → Prop where
  | single (op : RangeOp) {v w : Scalar} (h : v.Exchanged w) :
    Exchanged (.single op v) (.single op w)
  | between (lowOp highOp : RangeOp) {low low' high high' : Scalar} (hlow : low.Exchanged low')
    (hhigh : high.Exchanged high') :
    Exchanged (.between lowOp low highOp high) (.between lowOp low' highOp high')

/-! ### Leaves -/

namespace Filter

variable {t : RecordType}

theorem sameBut_boundsOf {b c : RangeBound} (path : String) (h : b.Exchanged c) :
    SameBut (List.map fun e => (e.1, e.2.blanked true)) (boundsOf path b) (boundsOf path c) := by
  cases h with
  | single op h =>
    apply h.toJson.bind
    intro j k hjk
    exact .ok (by simp [hjk])
  | between lowOp highOp hlow hhigh =>
    rw [boundsOf, boundsOf]
    split
    · apply hlow.toJson.bind
      intro j k hjk
      apply hhigh.toJson.bind
      intro j' k' hjk'
      exact .ok (by simp [hjk, hjk'])
    · rfl

/-- A leaf is found before its values are read. -/
theorem sameBut_leafAt {α β : Type} {shape : α → β} {read read' : Except StoreError α}
    {clause : FieldTarget → α → LeafClause} (path : String) (h : SameBut shape read read')
    (hclause : ∀ target a b, shape a = shape b →
      (clause target a).blanked = (clause target b).blanked) :
    SameBut PlacedLeaf.blanked (leafAt t path read clause) (leafAt t path read' clause) := by
  apply SameBut.bind_same
  intro target
  apply h.bind
  intro a b hab
  exact .ok (by rw [PlacedLeaf.blanked, PlacedLeaf.blanked, hclause target a b hab])

theorem sameBut_termLeaf {v w : Scalar} (path : String) (h : v.Exchanged w) :
    SameBut PlacedLeaf.blanked (termLeaf t path v) (termLeaf t path w) := by
  apply sameBut_leafAt path h.toJson
  intro target j k hjk
  rw [LeafClause.blanked, LeafClause.blanked, hjk]

theorem sameBut_rangeLeaf {b c : RangeBound} (path : String) (h : b.Exchanged c) :
    SameBut PlacedLeaf.blanked (rangeLeaf t path b) (rangeLeaf t path c) := by
  apply sameBut_leafAt path (sameBut_boundsOf path h)
  intro target bounds bounds' heq
  rw [LeafClause.blanked, LeafClause.blanked, heq]

theorem sameBut_termsLeaf {vs ws : List Scalar} (path : String)
    (h : List.Forall₂ Scalar.Exchanged vs ws) :
    SameBut PlacedLeaf.blanked (termsLeaf t path vs) (termsLeaf t path ws) := by
  apply sameBut_leafAt path (Scalar.sameBut_allToJson h)
  intro target js ks heq
  rw [LeafClause.blanked, LeafClause.blanked, heq]

theorem sameBut_idsLeaf {vs ws : List Scalar} (h : List.Forall₂ Scalar.Exchanged vs ws) :
    SameBut PlacedLeaf.blanked (idsLeaf vs) (idsLeaf ws) := by
  apply (Scalar.sameBut_allToJson h).bind
  intro js ks heq
  exact .ok (by simp only [PlacedLeaf.blanked, LeafClause.blanked, heq])

/-- Texts with as many words, where no words count as one, make as many clauses. -/
theorem map_blanked_words (root : Option String) (path : String) {lower lower' : String}
    (h : max 1 (Text.words lower).length = max 1 (Text.words lower').length) :
    ((wordsOf lower).map fun w => PlacedLeaf.mk root (.fullText path w)).map PlacedLeaf.blanked =
      ((wordsOf lower').map fun w => PlacedLeaf.mk root (.fullText path w)).map
        PlacedLeaf.blanked := by
  simp only [List.map_map, Function.comp_def, PlacedLeaf.blanked, LeafClause.blanked,
    List.map_const', Leaf.length_wordsOf, h]

theorem sameBut_likeLeaves (path : String) {text text' : String} (type : LikeType)
    (caseInsensitive : Bool)
    (h : type = .equalTo → caseInsensitive = true →
      max 1 (Text.words (Text.lowercase text)).length =
        max 1 (Text.words (Text.lowercase text')).length) :
    SameBut (List.map PlacedLeaf.blanked) (likeLeaves t path text type caseInsensitive)
      (likeLeaves t path text' type caseInsensitive) := by
  apply SameBut.bind_same
  intro target
  dsimp only
  -- Lower-casing reads long tables, which the cases below must not unfold.
  generalize Text.lowercase text = lower at h ⊢
  generalize Text.lowercase text' = lower' at h ⊢
  split
  · cases type with
    | raw | startsWith | endsWith | contains => exact .ok rfl
    | equalTo =>
      cases caseInsensitive with
      | true => exact .ok (map_blanked_words target.manyRoot path (h rfl rfl))
      | false =>
        have htexts : (Scalar.text text).Exchanged (.text text') := ⟨rfl, nofun, nofun⟩
        apply (sameBut_termLeaf path htexts).bind
        intro l l' hl
        exact .ok (by rw [List.map_singleton, List.map_singleton, hl])
  · rfl

end Filter

/-! ### Conditions -/

namespace Condition

/-- What a condition puts into the scope around it, without what its leaves compare with. -/
def shape (c : Condition) : Part := c.part.blanked

theorem shape_leaf (l : PlacedLeaf) : (leaf l).shape = .bare l.blanked := by
  rw [shape, part, Part.blanked]

theorem shape_all (cs : List Condition) :
    (all cs).shape = .bool .must (Part.grouped .must (cs.map shape)) := by
  rw [shape, part, Part.blanked, partsOf_eq_map, ← Part.grouped_blanked, List.map_map]
  rfl

theorem shape_any (cs : List Condition) :
    (any cs).shape = .bool .should (Part.grouped .should (cs.map shape)) := by
  rw [shape, part, Part.blanked, partsOf_eq_map, ← Part.grouped_blanked, List.map_map]
  rfl

theorem shape_not (c : Condition) :
    (not c).shape = .bool .mustNot (Part.grouped .mustNot [c.shape]) := by
  rw [shape, part, Part.blanked, ← Part.grouped_blanked]
  rfl

variable {cs ds : List Condition}

theorem shape_all_congr (h : cs.map shape = ds.map shape) : (all cs).shape = (all ds).shape := by
  rw [shape_all, shape_all, h]

theorem shape_any_congr (h : cs.map shape = ds.map shape) : (any cs).shape = (any ds).shape := by
  rw [shape_any, shape_any, h]

theorem shape_negatedWhen (negated : Bool) {c d : Condition} (h : c.shape = d.shape) :
    (negatedWhen negated c).shape = (negatedWhen negated d).shape := by
  cases negated with
  | true => exact (shape_not c).trans (by rw [h, ← shape_not]; rfl)
  | false => exact h

/-- A single condition stands alone for both. -/
theorem shape_joined {join : List Condition → Condition}
    (hjoin : cs.map shape = ds.map shape → (join cs).shape = (join ds).shape)
    (h : cs.map shape = ds.map shape) : (joined join cs).shape = (joined join ds).shape := by
  have hlength : cs.length = ds.length := by simpa using congrArg List.length h
  match cs, ds, hlength with
  | [], [], _ => rfl
  | [c], [d], _ => exact List.head_eq_of_cons_eq h
  | _ :: _ :: _, _ :: _ :: _, _ => exact hjoin h

end Condition

/-! ### Filters -/

namespace Filter

mutual

/-- Filters of the same conditions on the same paths, joined alike, with values for values and texts
for texts. -/
inductive Exchanged : Filter → Filter → Prop where
  | and {fs gs : List Filter} (h : ExchangedAll fs gs) : Exchanged (.and fs) (.and gs)
  | or {fs gs : List Filter} (h : ExchangedAll fs gs) : Exchanged (.or fs) (.or gs)
  | not {f g : Filter} (h : Exchanged f g) : Exchanged (.not f) (.not g)
  | equals (path : String) {v w : Scalar} (h : v.Exchanged w) :
    Exchanged (.equals path v) (.equals path w)
  | notEquals (path : String) {v w : Scalar} (h : v.Exchanged w) :
    Exchanged (.notEquals path v) (.notEquals path w)
  | allEquals {ps qs : List (String × Scalar)}
    (h : List.Forall₂ (fun p q => p.1 = q.1 ∧ p.2.Exchanged q.2) ps qs) :
    Exchanged (.allEquals ps) (.allEquals qs)
  | range (path : String) {b c : RangeBound} (h : b.Exchanged c) :
    Exchanged (.range path b) (.range path c)
  | oneOf (path : String) {vs ws : List Scalar} (negated : Bool)
    (h : List.Forall₂ Scalar.Exchanged vs ws) :
    Exchanged (.oneOf path vs negated) (.oneOf path ws negated)
  | ids {vs ws : List Scalar} (h : List.Forall₂ Scalar.Exchanged vs ws) :
    Exchanged (.ids vs) (.ids ws)
  | like (path : String) {text text' : String} (type : LikeType) (caseInsensitive : Bool)
    (h : type = .equalTo → caseInsensitive = true →
      max 1 (Text.words (Text.lowercase text)).length =
        max 1 (Text.words (Text.lowercase text')).length) :
    Exchanged (.like path text type caseInsensitive) (.like path text' type caseInsensitive)
  | exists (path : String) (mustExist : Bool) :
    Exchanged (.exists path mustExist) (.exists path mustExist)

inductive ExchangedAll : List Filter → List Filter → Prop where
  | nil : ExchangedAll [] []
  | cons {f g : Filter} {fs gs : List Filter} (h : Exchanged f g) (hs : ExchangedAll fs gs) :
    ExchangedAll (f :: fs) (g :: gs)

end

variable {t : RecordType} {f g : Filter}

theorem Exchanged.conjuncts (h : Exchanged f g) : ExchangedAll f.conjuncts g.conjuncts := by
  cases h with
  | and h => exact h
  | or h => exact .cons (.or h) .nil
  | not h => exact .cons (.not h) .nil
  | equals path h => exact .cons (.equals path h) .nil
  | notEquals path h => exact .cons (.notEquals path h) .nil
  | allEquals h => exact .cons (.allEquals h) .nil
  | range path h => exact .cons (.range path h) .nil
  | oneOf path negated h => exact .cons (.oneOf path negated h) .nil
  | ids h => exact .cons (.ids h) .nil
  | like path type caseInsensitive h => exact .cons (.like path type caseInsensitive h) .nil
  | «exists» path mustExist => exact .cons (.exists path mustExist) .nil

theorem sameBut_leaf {x y : Except StoreError PlacedLeaf} (negated : Bool)
    (h : SameBut PlacedLeaf.blanked x y) :
    SameBut Condition.shape (do .ok (.negatedWhen negated (.leaf (← x))))
      (do .ok (.negatedWhen negated (.leaf (← y)))) := by
  apply h.bind
  intro l l' hl
  apply SameBut.ok
  apply Condition.shape_negatedWhen
  rw [Condition.shape_leaf, Condition.shape_leaf, hl]

/-- A null stands for a missing property, and nothing else about a value matters. -/
theorem sameBut_equalsCondition {v w : Scalar} (path : String) (h : v.Exchanged w) :
    SameBut Condition.shape (equalsCondition t path v) (equalsCondition t path w) := by
  rw [equalsCondition, equalsCondition, h.isNull_eq]
  split
  · rfl
  · exact sameBut_leaf false (sameBut_termLeaf path h)

theorem sameBut_join {join : List Condition → Condition}
    {x y : Except StoreError (List Condition)}
    (hjoin : ∀ {cs ds : List Condition}, cs.map Condition.shape = ds.map Condition.shape →
      (join cs).shape = (join ds).shape)
    (h : SameBut (List.map Condition.shape) x y) :
    SameBut Condition.shape (do .ok (join (← x))) (do .ok (join (← y))) := by
  apply h.bind
  intro cs ds hcs
  exact .ok (hjoin hcs)

theorem sameBut_not {x y : Except StoreError Condition} (h : SameBut Condition.shape x y) :
    SameBut Condition.shape (do .ok (.not (← x))) (do .ok (.not (← y))) := by
  apply h.bind
  intro c d hcd
  exact .ok (by rw [Condition.shape_not, Condition.shape_not, hcd])

mutual

/-- Filters that are exchanged for each other ask for conditions of one shape, or fail alike. The
induction is on the way they are alike. -/
theorem sameBut_condition {f g : Filter} (h : Exchanged f g) :
    SameBut Condition.shape (condition t f) (condition t g) := by
  cases h with
  | and h =>
    rw [condition, condition]
    exact sameBut_join (Condition.shape_joined Condition.shape_all_congr) (sameBut_conditions h)
  | or h =>
    rw [condition, condition]
    exact sameBut_join (Condition.shape_joined Condition.shape_any_congr) (sameBut_conditions h)
  | not h =>
    rw [condition, condition]
    exact sameBut_not (sameBut_condition h)
  | equals path h =>
    rw [condition, condition]
    exact sameBut_equalsCondition path h
  | notEquals path h =>
    rw [condition, condition]
    exact sameBut_not (sameBut_equalsCondition path h)
  | allEquals h =>
    rw [condition, condition]
    apply sameBut_join Condition.shape_all_congr
    apply SameBut.mapM
    refine h.imp fun p q hpq => ?_
    rw [hpq.1]
    exact sameBut_equalsCondition q.1 hpq.2
  | range path h =>
    rw [condition, condition]
    exact sameBut_leaf false (sameBut_rangeLeaf path h)
  | oneOf path negated h =>
    rw [condition, condition]
    exact sameBut_leaf negated (sameBut_termsLeaf path h)
  | ids h =>
    rw [condition, condition]
    exact sameBut_leaf false (sameBut_idsLeaf h)
  | like path type caseInsensitive h =>
    rw [condition, condition]
    apply (sameBut_likeLeaves path type caseInsensitive h).bind
    intro ls ls' hls
    apply SameBut.ok
    apply Condition.shape_joined Condition.shape_all_congr
    have hleaf : Condition.shape ∘ Condition.leaf = Part.bare ∘ PlacedLeaf.blanked :=
      funext Condition.shape_leaf
    rw [List.map_map, List.map_map, hleaf, ← List.map_map, ← List.map_map, hls]
  | «exists» path mustExist => rfl

theorem sameBut_conditions {fs gs : List Filter} (h : ExchangedAll fs gs) :
    SameBut (List.map Condition.shape) (conditions t fs) (conditions t gs) := by
  cases h with
  | nil => rfl
  | cons h hs =>
    rw [conditions, conditions]
    apply (sameBut_condition h).bind
    intro c d hcd
    apply (sameBut_conditions hs).bind
    intro cs ds hcs
    exact .ok (by rw [List.map_cons, List.map_cons, hcd, hcs])

end

end Filter

end DocumentSearch
