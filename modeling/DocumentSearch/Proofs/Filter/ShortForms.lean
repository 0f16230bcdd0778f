import DocumentSearch.Proofs.Filter.Structure
import DocumentSearch.Query.Compile
import Mathlib.Logic.Relation

/-!
# Short forms

Several conditions are short for others: a condition with its negation built in, a comparison with
null, a list of equalities, a junction of one filter. Each is written by code of its own, but where
it stands it asks for the same condition as the form that it is short for. Since a clause is made
from the condition alone, a filter may be spelled out anywhere without a change to its clause. Only
beside an id does it matter whether a conjunction stands at the top.
-/

namespace DocumentSearch

namespace Filter

/-- One short form in a filter is written out, at the top or anywhere below it. -/
inductive SpelledOut (m : Mapping) : Filter → Filter → Prop where
  | notEquals (path : String) (value : Scalar) :
    SpelledOut m (.notEquals path value) (.not (.equals path value))
  | noneOf (path : String) (values : List Scalar) :
    SpelledOut m (.oneOf path values true) (.not (.oneOf path values false))
  | missing (path : String) : SpelledOut m (.exists path false) (.not (.exists path true))
  | null (path : String) : SpelledOut m (.equals path .null) (.exists path false)
  /-- A single equality keeps a scope of its own, which a junction of one filter would not have. -/
  | allEquals (pairs : List (String × Scalar)) (h : pairs.length ≠ 1) :
    SpelledOut m (.allEquals pairs) (.and (pairs.map fun p => .equals p.1 p.2))
  | sameText (path text : String) (p : Property) (h : m.get? path = some p) (htext : p.kind.isText) :
    SpelledOut m (.like path text .equalTo false) (.equals path (.text text))
  | onlyAnd (f : Filter) : SpelledOut m (.and [f]) f
  | onlyOr (f : Filter) : SpelledOut m (.or [f]) f
  | inNot {f g : Filter} (h : SpelledOut m f g) : SpelledOut m (.not f) (.not g)
  | inAnd (before after : List Filter) {f g : Filter} (h : SpelledOut m f g) :
    SpelledOut m (.and (before ++ f :: after)) (.and (before ++ g :: after))
  | inOr (before after : List Filter) {f g : Filter} (h : SpelledOut m f g) :
    SpelledOut m (.or (before ++ f :: after)) (.or (before ++ g :: after))

section Conditions

variable (t : RecordType)

theorem conditions_eq_mapM (fs : List Filter) : conditions t fs = fs.mapM (condition t) := by
  induction fs with
  | nil => rfl
  | cons f rest ih =>
    rw [conditions, ih, List.mapM_cons]
    rfl

theorem length_of_mapM {ε α β : Type} {f : α → Except ε β} {xs : List α} {ys : List β}
    (h : xs.mapM f = .ok ys) : ys.length = xs.length := by
  induction xs generalizing ys with
  | nil =>
    obtain rfl := Except.ok.inj h
    rfl
  | cons x rest ih =>
    rw [List.mapM_cons] at h
    obtain ⟨y, -, h⟩ := ok_of_bind h
    obtain ⟨others, hothers, h⟩ := ok_of_bind h
    obtain rfl := Except.ok.inj h
    rw [List.length_cons, List.length_cons, ih hothers]

/-- Any number of conditions but one keep the junction around them. -/
theorem joined_of_length_ne {join : List Condition → Condition} {cs : List Condition}
    (h : cs.length ≠ 1) : Condition.joined join cs = join cs := by
  match cs with
  | [] => rfl
  | [c] => exact absurd rfl h
  | _ :: _ :: _ => rfl

theorem condition_allEquals {pairs : List (String × Scalar)} (h : pairs.length ≠ 1) :
    condition t (.allEquals pairs) = condition t (.and (pairs.map fun p => .equals p.1 p.2)) := by
  have hconditions : conditions t (pairs.map fun p => .equals p.1 p.2) =
      pairs.mapM fun p => equalsCondition t p.1 p.2 := by
    rw [conditions_eq_mapM, List.mapM_map]
    exact congrArg (fun f => pairs.mapM f) (funext fun p => by rw [Function.comp, condition])
  rw [condition, condition, hconditions]
  cases hpairs : pairs.mapM fun p => equalsCondition t p.1 p.2 with
  | error e => rfl
  | ok cs =>
    have hlength : cs.length ≠ 1 := by rwa [length_of_mapM hpairs]
    exact congrArg Except.ok (joined_of_length_ne hlength).symm

/-- A short form asks for the same condition as what it is short for. -/
theorem condition_spelledOut {f g : Filter} (h : SpelledOut t.mapping f g) :
    condition t f = condition t g := by
  induction h with
  | notEquals path value => simp only [condition]
  | noneOf path values =>
    rw [condition, condition, condition]
    cases termsLeaf t path values <;> rfl
  | missing path =>
    rw [condition, condition, condition]
    cases existsLeaf t path <;> rfl
  | null path =>
    rw [condition, condition]
    rfl
  | allEquals pairs h => exact condition_allEquals t h
  | sameText path text p h htext =>
    have hresolve : t.resolve path = .ok ⟨p.raw.getD path, t.mapping.manyRoot path, p.kind⟩ := by
      rw [RecordType.resolve, Mapping.target?, h]
      rfl
    have hleaves : likeLeaves t path text .equalTo false =
        (do .ok [← termLeaf t path (.text text)]) := by
      rw [likeLeaves, hresolve]
      exact if_pos htext
    rw [condition, condition, hleaves, equalsCondition]
    cases termLeaf t path (.text text) <;> rfl
  | onlyAnd f | onlyOr f =>
    rw [condition, conditions, conditions]
    cases condition t f <;> rfl
  | inNot h ih => rw [condition, condition, ih]
  | inAnd before after h ih | inOr before after h ih =>
    rw [condition, condition, conditions_eq_mapM, conditions_eq_mapM, List.mapM_append,
      List.mapM_append, List.mapM_cons, List.mapM_cons, ih]

/-- Joining conditions as a builder does is a junction of them, a single one included. -/
theorem exists_spelledOut_joined {m : Mapping} {join : List Filter → Filter}
    (honly : ∀ f, SpelledOut m (join [f]) f) {fs : List Filter} (h : fs ≠ []) :
    ∃ f, joined join fs = some f ∧ Relation.ReflTransGen (SpelledOut m) (join fs) f := by
  match fs, h with
  | [f], _ => exact ⟨f, rfl, .single (honly f)⟩
  | f :: g :: rest, _ => exact ⟨join (f :: g :: rest), rfl, .refl⟩

end Conditions

end Filter

/-! ### Requests -/

namespace Query

/-- Whether a request comes to the same with either filter: to the same clause and the same
document, or to the same error. -/
structure Alike (q : Query) (f g : Filter) : Prop where
  clause : Filter.compile q.recordType q.id (some f) = Filter.compile q.recordType q.id (some g)
  document : ({ q with filter := some f } : Query).compile =
    ({ q with filter := some g } : Query).compile

open DocumentSearch.Filter (SpelledOut)

variable {q : Query} {f g : Filter}

theorem alike_of_condition (hid : q.id = none)
    (h : Filter.condition q.recordType f = Filter.condition q.recordType g) : q.Alike f g := by
  have hclause : Filter.compile q.recordType none (some f) =
      Filter.compile q.recordType none (some g) := by
    rw [Filter.compile_filter, Filter.compile_filter, h]
  constructor
  case clause => rw [hid, hclause]
  case document => simp only [Query.compile, clauseJson, hid, hclause]

theorem alike_of_spelledOut (hid : q.id = none)
    (h : Relation.ReflTransGen (SpelledOut q.recordType.mapping) f g) : q.Alike f g := by
  refine alike_of_condition hid ?_
  induction h with
  | refl => rfl
  | tail _ hstep ih => exact ih.trans (Filter.condition_spelledOut q.recordType hstep)

/-- Without an id, a filter may be spelled out in any number of places, at any depth, and still
comes to the same document or the same error. So what a builder makes of some filters comes to the
same as their junction. -/
theorem spelledOut_alike (hid : q.id = none) :
    (∀ f g, Relation.ReflTransGen (SpelledOut q.recordType.mapping) f g → q.Alike f g) ∧
    ∀ fs ≠ [], (∃ f, Filter.allOf fs = some f ∧ q.Alike (.and fs) f) ∧
      ∃ f, Filter.anyOf fs = some f ∧ q.Alike (.or fs) f := by
  refine ⟨fun f g h => alike_of_spelledOut hid h, fun fs hfs => ⟨?_, ?_⟩⟩
  · obtain ⟨f, hf, hsteps⟩ := Filter.exists_spelledOut_joined SpelledOut.onlyAnd hfs
    exact ⟨f, hf, alike_of_spelledOut hid hsteps⟩
  · obtain ⟨f, hf, hsteps⟩ := Filter.exists_spelledOut_joined SpelledOut.onlyOr hfs
    exact ⟨f, hf, alike_of_spelledOut hid hsteps⟩

/-! ### Songs and where they were played -/

def songs : RecordType :=
  let mapping := (((Mapping.empty "songs" "song").property "title" .string).property
    "plays" .list).property "plays.place" .string
  ⟨"song", mapping, "id"⟩

/-- Songs without a title that were played elsewhere than in Rome, or in Bonn. -/
def untitled : Filter :=
  .and [.and [.notEquals "plays.place" (.text "Rome")], .equals "title" .null,
    .or [.allEquals [], .like "plays.place" "Bonn" .equalTo false]]

/-- The same with nothing left short. -/
def untitledInFull : Filter :=
  .and [.not (.equals "plays.place" (.text "Rome")), .not (.exists "title" true),
    .or [.and [], .equals "plays.place" (.text "Bonn")]]

theorem spelledOut_untitled :
    Relation.ReflTransGen (SpelledOut songs.mapping) untitled untitledInFull := by
  refine .head (.inAnd [] _ (.onlyAnd _)) (.head (.inAnd [] _ (.notEquals _ _)) ?_)
  refine .head (.inAnd [_] _ (.null _)) (.head (.inAnd [_] _ (.missing _)) ?_)
  refine .head (.inAnd [_, _] _ (.inOr [] _ (.allEquals [] (by decide)))) (.single ?_)
  exact .inAnd [_, _] _ (.inOr [_] _ (.sameText _ _ ⟨"plays.place", .string, none⟩ rfl rfl))

theorem spelledOut_alike_untitled :
    (Query.all songs).id = none ∧
      Relation.ReflTransGen (SpelledOut songs.mapping) untitled untitledInFull ∧
      (Query.all songs).Alike untitled untitledInFull ∧
      ∃ f, Filter.allOf [untitled] = some f ∧ (Query.all songs).Alike (.and [untitled]) f := by
  have halike := spelledOut_alike (q := .all songs) rfl
  exact ⟨rfl, spelledOut_untitled, halike.1 _ _ spelledOut_untitled,
    (halike.2 [untitled] (List.cons_ne_nil _ _)).1⟩

end Query

end DocumentSearch
