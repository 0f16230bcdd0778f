import DocumentSearch.Proofs.Filter.Structure

/-!
# What patterns mean

A pattern is read twice: by the one who writes it into a filter, and by the engine that matches the
clause it becomes. Both readings are lists of glyphs, so the two can be compared glyph by glyph. The
engine's wildcards are not escaped on the way. Hence it accepts whatever the writer's reading
accepts, and nothing else exactly when the text has none of the engine's wildcards in it, or becomes
a clause that has no wildcards.
-/

namespace DocumentSearch

inductive Glyph where
  | any
  | one
  | char (c : Char)
  deriving DecidableEq, Repr

namespace Glyph

/-- What a glyph stands for: any run of characters, exactly one, or itself. -/
def Spells : Glyph → List Char → Prop
  | .any, _ => True
  | .one, run => ∃ c, run = [c]
  | .char c, run => run = [c]

/-- Whether a list of glyphs stands for all of a text. -/
def Accepts : List Glyph → List Char → Prop
  | [], s => s = []
  | g :: p, s => ∃ front back, s = front ++ back ∧ g.Spells front ∧ Accepts p back

/-- How the engine reads a character of a wildcard pattern. -/
def ofWildcard (c : Char) : Glyph := if c = '*' then .any else if c = '?' then .one else .char c

/-- How a character of a raw pattern is meant. -/
def ofRaw (c : Char) : Glyph := if c = '%' then .any else if c = '_' then .one else .char c

section Acceptance

variable {p q : List Glyph} {s l : List Char}

theorem accepts_append :
    Accepts (p ++ q) s ↔ ∃ front back, s = front ++ back ∧ Accepts p front ∧ Accepts q back := by
  induction p generalizing s with
  | nil => simp [Accepts]
  | cons g rest ih =>
    simp only [List.cons_append, Accepts, ih]
    constructor
    · rintro ⟨run, _, rfl, hrun, front, back, rfl, hfront, hback⟩
      exact ⟨run ++ front, back, by simp, ⟨run, front, rfl, hrun, hfront⟩, hback⟩
    · rintro ⟨_, back, rfl, ⟨run, front, rfl, hrun, hfront⟩, hback⟩
      exact ⟨run, front ++ back, by simp, hrun, front, back, rfl, hfront, hback⟩

theorem accepts_chars : Accepts (l.map .char) s ↔ s = l := by
  induction l generalizing s with
  | nil => simp [Accepts]
  | cons c rest ih => simp [Accepts, Spells, ih]

theorem accepts_any : Accepts [.any] s := ⟨s, [], by simp, trivial, rfl⟩

/-- A character that a pattern holds stands in every text that it accepts. -/
theorem mem_of_accepts {c : Char} (hmem : .char c ∈ p) (h : Accepts p s) : c ∈ s := by
  obtain ⟨before, after, rfl⟩ := List.append_of_mem hmem
  obtain ⟨front, _, rfl, -, run, back, rfl, hrun, -⟩ := accepts_append.mp h
  obtain rfl : run = [c] := hrun
  simp

/-- A pattern whose glyphs stand for more accepts more. -/
theorem accepts_of_forall₂
    (hmore : List.Forall₂ (fun g g' => ∀ run, g.Spells run → g'.Spells run) p q)
    (h : Accepts p s) : Accepts q s := by
  induction hmore generalizing s with
  | nil => exact h
  | cons hglyph _ ih =>
    obtain ⟨front, back, rfl, hfront, hback⟩ := h
    exact ⟨front, back, rfl, hglyph front hfront, ih hback⟩

end Acceptance

/-! ### Texts that a pattern accepts -/

/-- A short text that a glyph stands for. -/
def sample : Glyph → List Char
  | .any => []
  | .one => ['a']
  | .char c => [c]

theorem spells_sample (g : Glyph) : g.Spells g.sample := by
  cases g with
  | any => trivial
  | one => exact ⟨'a', rfl⟩
  | char c => rfl

theorem accepts_samples (p : List Glyph) : Accepts p (p.flatMap sample) := by
  induction p with
  | nil => rfl
  | cons g rest ih => exact ⟨g.sample, _, List.flatMap_cons, spells_sample g, ih⟩

/-- Whether the engine reads a character as a wildcard. -/
def IsWild (c : Char) : Prop := c = '*' ∨ c = '?'

theorem ofWildcard_of_not_isWild {c : Char} (h : ¬IsWild c) : ofWildcard c = .char c := by
  rw [IsWild, not_or] at h
  rw [ofWildcard, if_neg h.1, if_neg h.2]

/-- A wildcard need not stand for itself: some text without wildcards is accepted. -/
theorem not_isWild_of_mem_samples {l : List Char} {c : Char}
    (h : c ∈ (l.map ofWildcard).flatMap sample) : ¬IsWild c := by
  obtain ⟨g, hg, hc⟩ := List.mem_flatMap.mp h
  obtain ⟨d, -, rfl⟩ := List.mem_map.mp hg
  by_cases hstar : d = '*'
  · simp [ofWildcard, hstar, sample] at hc
  · by_cases hmark : d = '?'
    · obtain rfl : c = 'a' := by simpa [ofWildcard, hmark, sample] using hc
      exact not_or.mpr ⟨by decide, by decide⟩
    · obtain rfl : c = d := by simpa [ofWildcard, hstar, hmark, sample] using hc
      exact not_or.mpr ⟨hstar, hmark⟩

/-- What stands for itself when written stands for it when matched. -/
theorem spells_ofWildcard {c : Char} {run : List Char} (h : run = [c]) :
    (ofWildcard c).Spells run := by
  rw [ofWildcard]
  split
  · trivial
  · split
    · exact ⟨c, h⟩
    · exact h

end Glyph

open Glyph (Accepts IsWild)

/-! ### Raw patterns -/

/-- A character of a raw pattern as the engine is told it. -/
def engineChar (c : Char) : Char := if c = '_' then '?' else if c = '%' then '*' else c

theorem toList_wildcardOf (l : String) :
    (Filter.wildcardOf l).toList = l.toList.map engineChar := by
  simp [Filter.wildcardOf, engineChar]

theorem ofWildcard_engineChar {c : Char} (h : ¬IsWild c) :
    Glyph.ofWildcard (engineChar c) = Glyph.ofRaw c := by
  rw [IsWild, not_or] at h
  by_cases hone : c = '_'
  · subst hone
    rfl
  · by_cases hany : c = '%'
    · subst hany
      rfl
    · simp [engineChar, Glyph.ofRaw, Glyph.ofWildcard, hone, hany, h.1, h.2]

theorem spells_engineChar (c : Char) (run : List Char) (h : (Glyph.ofRaw c).Spells run) :
    (Glyph.ofWildcard (engineChar c)).Spells run := by
  by_cases hwild : IsWild c
  · rcases hwild with rfl | rfl
    · trivial
    · exact ⟨'?', h⟩
  · rw [ofWildcard_engineChar hwild]
    exact h

/-! ### The two readings -/

/-- Whether the engine accepts a text for a clause that matches a pattern. -/
def LeafClause.AcceptsText : LeafClause → String → Prop
  | .wildcard _ pattern, s => Accepts (pattern.toList.map Glyph.ofWildcard) s.toList
  | .startsWith _ text, s => text.toList <+: s.toList
  | _, _ => False

/-- How a text is meant, once it is in lower case. -/
def LikeType.Reads : LikeType → String → String → Prop
  | .raw, lower, s => Accepts (lower.toList.map Glyph.ofRaw) s.toList
  | .startsWith, lower, s => lower.toList <+: s.toList
  | .endsWith, lower, s => lower.toList <:+ s.toList
  | .contains, lower, s => lower.toList <:+: s.toList
  | .equalTo, lower, s => s = lower

/-- Where the engine accepts all that is meant, it accepts no more exactly when no character of the
text is one of its wildcards. -/
theorem accepts_iff_reads_iff {type : LikeType} {lower pattern path : String}
    (hless : ∀ s, type.Reads lower s → (LeafClause.wildcard path pattern).AcceptsText s)
    (hplain : (∀ c ∈ lower.toList, ¬IsWild c) →
      ∀ s, (LeafClause.wildcard path pattern).AcceptsText s → type.Reads lower s)
    (hliteral : ∀ s, type.Reads lower s → ∀ c ∈ lower.toList, IsWild c → c ∈ s.toList) :
    (∀ s, (LeafClause.wildcard path pattern).AcceptsText s ↔ type.Reads lower s) ↔
      ∀ c ∈ lower.toList, ¬IsWild c := by
  constructor
  · intro hsame c hc hwild
    have haccepts := Glyph.accepts_samples (pattern.toList.map Glyph.ofWildcard)
    generalize hsamples :
      (pattern.toList.map Glyph.ofWildcard).flatMap Glyph.sample = cs at haccepts
    have hreads := (hsame (String.ofList cs)).mp (by
      rw [LeafClause.AcceptsText, String.toList_ofList]
      exact haccepts)
    have hmem := hliteral _ hreads c hc hwild
    rw [String.toList_ofList, ← hsamples] at hmem
    exact Glyph.not_isWild_of_mem_samples hmem hwild
  · exact fun hnone s => ⟨hplain hnone s, hless s⟩

section Readings

variable {lower path s : String}

theorem accepts_self (l : List Char) : Accepts (l.map Glyph.ofWildcard) l := by
  apply Glyph.accepts_of_forall₂ _ (Glyph.accepts_chars.mpr rfl)
  rw [List.forall₂_map_left_iff, List.forall₂_map_right_iff]
  exact List.forall₂_same.mpr fun c _ run hrun => Glyph.spells_ofWildcard hrun

theorem map_ofWildcard_of_plain {l : List Char} (h : ∀ c ∈ l, ¬IsWild c) :
    l.map Glyph.ofWildcard = l.map .char :=
  List.map_congr_left fun c hc => Glyph.ofWildcard_of_not_isWild (h c hc)

/-! ### Each kind of pattern -/

theorem accepts_raw (h : LikeType.Reads .raw lower s) :
    (LeafClause.wildcard path (Filter.wildcardOf lower)).AcceptsText s := by
  rw [LeafClause.AcceptsText, toList_wildcardOf, List.map_map]
  apply Glyph.accepts_of_forall₂ _ h
  rw [List.forall₂_map_left_iff, List.forall₂_map_right_iff]
  exact List.forall₂_same.mpr fun c _ => spells_engineChar c

theorem raw_exact_iff :
    (∀ s, (LeafClause.wildcard path (Filter.wildcardOf lower)).AcceptsText s ↔
      LikeType.Reads .raw lower s) ↔ ∀ c ∈ lower.toList, ¬IsWild c := by
  apply accepts_iff_reads_iff fun _ => accepts_raw
  · intro hplain s h
    rw [LeafClause.AcceptsText, toList_wildcardOf, List.map_map] at h
    have hsame : lower.toList.map (Glyph.ofWildcard ∘ engineChar) =
        lower.toList.map Glyph.ofRaw :=
      List.map_congr_left fun c hc => ofWildcard_engineChar (hplain c hc)
    rwa [hsame] at h
  · intro s h c hc hwild
    have hchar : Glyph.ofRaw c = .char c := by rcases hwild with rfl | rfl <;> rfl
    exact Glyph.mem_of_accepts (List.mem_map.mpr ⟨c, hc, hchar⟩) h

theorem toList_endsWith :
    (("*" ++ lower).toList.map Glyph.ofWildcard) = .any :: lower.toList.map Glyph.ofWildcard := by
  simp [Glyph.ofWildcard]

theorem accepts_endsWith (h : LikeType.Reads .endsWith lower s) :
    (LeafClause.wildcard path ("*" ++ lower)).AcceptsText s := by
  obtain ⟨start, hs⟩ := h
  rw [LeafClause.AcceptsText, toList_endsWith]
  exact ⟨start, lower.toList, hs.symm, trivial, accepts_self _⟩

theorem endsWith_exact_iff :
    (∀ s, (LeafClause.wildcard path ("*" ++ lower)).AcceptsText s ↔
      LikeType.Reads .endsWith lower s) ↔ ∀ c ∈ lower.toList, ¬IsWild c := by
  apply accepts_iff_reads_iff fun _ => accepts_endsWith
  · intro hplain s h
    rw [LeafClause.AcceptsText, toList_endsWith, map_ofWildcard_of_plain hplain] at h
    obtain ⟨start, back, hs, -, hback⟩ := h
    obtain rfl := Glyph.accepts_chars.mp hback
    exact ⟨start, hs.symm⟩
  · intro s h c hc _
    exact h.subset hc

theorem toList_contains :
    (("*" ++ lower ++ "*").toList.map Glyph.ofWildcard) =
      .any :: (lower.toList.map Glyph.ofWildcard ++ [.any]) := by
  simp [Glyph.ofWildcard]

theorem accepts_contains (h : LikeType.Reads .contains lower s) :
    (LeafClause.wildcard path ("*" ++ lower ++ "*")).AcceptsText s := by
  obtain ⟨start, rest, hs⟩ := h
  rw [LeafClause.AcceptsText, toList_contains]
  refine ⟨start, lower.toList ++ rest, by rw [← hs, List.append_assoc], trivial, ?_⟩
  exact Glyph.accepts_append.mpr ⟨lower.toList, rest, rfl, accepts_self _, Glyph.accepts_any⟩

theorem contains_exact_iff :
    (∀ s, (LeafClause.wildcard path ("*" ++ lower ++ "*")).AcceptsText s ↔
      LikeType.Reads .contains lower s) ↔ ∀ c ∈ lower.toList, ¬IsWild c := by
  apply accepts_iff_reads_iff fun _ => accepts_contains
  · intro hplain s h
    rw [LeafClause.AcceptsText, toList_contains, map_ofWildcard_of_plain hplain] at h
    obtain ⟨start, _, hs, -, hback⟩ := h
    obtain ⟨front, rest, rfl, hfront, -⟩ := Glyph.accepts_append.mp hback
    obtain rfl := Glyph.accepts_chars.mp hfront
    exact ⟨start, rest, by rw [hs, List.append_assoc]⟩
  · intro s h c hc _
    exact h.subset hc

end Readings

namespace Filter

/-- The leaf that a pattern on a text property becomes, wherever in a filter it stands. The engine
accepts all that is meant by the pattern. It accepts nothing else if and only if none of its
wildcards is in the text, or the pattern is the start of a text. -/
theorem like_exact_iff {t : RecordType} {path : String} {target : FieldTarget}
    (hpath : t.mapping.target? path = some target) (htext : target.kind.isText = true)
    {type : LikeType} (htype : type ≠ .equalTo) (text : String) (caseInsensitive : Bool) :
    ∃ leaf : LeafClause,
      (∀ d, writeTo t (.like path text type caseInsensitive) d =
        .ok ((d.prepare target).emit leaf)) ∧
      compile t none (some (.like path text type caseInsensitive)) =
        .ok (Part.bare ⟨target.manyRoot, leaf⟩).alone ∧
      (∀ s, type.Reads (Text.lowercase text) s → leaf.AcceptsText s) ∧
      ((∀ s, leaf.AcceptsText s ↔ type.Reads (Text.lowercase text) s) ↔
        type = .startsWith ∨ ∀ c ∈ (Text.lowercase text).toList, ¬IsWild c) := by
  have hresolve : t.resolve path = .ok target := by rw [RecordType.resolve, hpath]
  have hleaf : ∃ leaf : LeafClause,
      (∀ d, writeTo t (.like path text type caseInsensitive) d =
        .ok ((d.prepare target).emit leaf)) ∧
      likeLeaves t path text type caseInsensitive = .ok [⟨target.manyRoot, leaf⟩] ∧
      (∀ s, type.Reads (Text.lowercase text) s → leaf.AcceptsText s) ∧
      ((∀ s, leaf.AcceptsText s ↔ type.Reads (Text.lowercase text) s) ↔
        type = .startsWith ∨ ∀ c ∈ (Text.lowercase text).toList, ¬IsWild c) := by
    simp only [writeTo, writeLike, likeLeaves, hresolve, bind, Except.bind, htext, if_true]
    cases type with
    | raw => exact ⟨_, fun _ => rfl, rfl, fun _ => accepts_raw, by simp [raw_exact_iff]⟩
    | startsWith =>
      refine ⟨_, fun _ => rfl, rfl, fun _ h => h, ?_⟩
      simp [LeafClause.AcceptsText, LikeType.Reads]
    | endsWith =>
      exact ⟨_, fun _ => rfl, rfl, fun _ => accepts_endsWith, by simp [endsWith_exact_iff]⟩
    | contains =>
      exact ⟨_, fun _ => rfl, rfl, fun _ => accepts_contains, by simp [contains_exact_iff]⟩
    | equalTo => exact absurd rfl htype
  obtain ⟨leaf, hwrites, hleaves, hless, hexact⟩ := hleaf
  refine ⟨leaf, hwrites, ?_, hless, hexact⟩
  rw [compile_filter, condition, hleaves]
  rfl

/-! ### A wildcard of the engine in a text -/

/-- Orders with a status, which is a text. -/
def statusOrders : RecordType :=
  ⟨"order", (Mapping.empty "order" "order").property "status" .string, "id"⟩

/-- A pattern for the texts that begin with a star: the clause accepts any text at all. -/
theorem like_exact_iff_star :
    statusOrders.mapping.target? "status" = some ⟨"status", none, .string⟩ ∧
      compile statusOrders none (some (.like "status" "*%" .raw false)) =
        .ok (.leaf (.wildcard "status" "**")) ∧
      (LeafClause.wildcard "status" "**").AcceptsText "NEW" ∧
      ¬LikeType.Reads .raw (Text.lowercase "*%") "NEW" ∧
      ¬∀ s, (LeafClause.wildcard "status" "**").AcceptsText s ↔
        LikeType.Reads .raw (Text.lowercase "*%") s := by
  have hpath : statusOrders.mapping.target? "status" = some ⟨"status", none, .string⟩ := by
    decide +kernel
  have hlower : Text.lowercase "*%" = "*%" := by decide +kernel
  have hpattern : LikeType.raw ≠ .equalTo := by decide
  obtain ⟨leaf, -, hcompiled, -, hexact⟩ := like_exact_iff hpath rfl hpattern "*%" false
  have hclause : compile statusOrders none (some (.like "status" "*%" .raw false)) =
      .ok (.leaf (.wildcard "status" "**")) := rfl
  obtain rfl : leaf = .wildcard "status" "**" := by
    rw [hclause] at hcompiled
    exact (Clause.leaf.inj (Except.ok.inj hcompiled)).symm
  have haccepts : (LeafClause.wildcard "status" "**").AcceptsText "NEW" :=
    ⟨"NEW".toList, [], rfl, trivial, [], [], rfl, trivial, rfl⟩
  have hrejects : ¬LikeType.Reads .raw (Text.lowercase "*%") "NEW" := by
    rw [hlower]
    intro h
    have hstar : '*' ∈ "NEW".toList :=
      Glyph.mem_of_accepts (p := "*%".toList.map Glyph.ofRaw) (by decide) h
    revert hstar
    decide
  refine ⟨hpath, hclause, haccepts, hrejects, ?_⟩
  rw [hexact, hlower]
  rintro (h | hnone)
  · cases h
  · exact hnone '*' (by decide) (.inl rfl)

end Filter

end DocumentSearch
