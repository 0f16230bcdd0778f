import DocumentSearch.Json.Tree
import DocumentSearch.Proofs.Json.Lexing

/-!
# Reading trees back

Every tree is the tree of its own text. The machine that builds trees is followed through the
tokens of one: wherever a value may stand, the tokens of a tree leave the machine as if the tree
had been put there in one step.
-/

namespace DocumentSearch.Json

/-! ### The tokens of a tree -/

theorem noAtomAhead_spaces (s : Spaces) {rest : List Token} (h : NoAtomAhead rest) :
    NoAtomAhead (Spaces.tokens s ++ rest) := by
  cases s with
  | nil => exact h
  | cons c s => trivial

theorem separated_spaces (s : Spaces) {rest : List Token} (h : Separated rest) :
    Separated (Spaces.tokens s ++ rest) := by
  induction s with
  | nil => exact h
  | cons c s ih => exact ih

mutual

theorem Tree.separated_tokensThen (t : Tree) {rest : List Token} (hahead : NoAtomAhead rest)
    (hrest : Separated rest) : Separated (t.tokensThen rest) := by
  cases t with
  | atom a => exact ⟨hahead, hrest⟩
  | emptyArray s => exact separated_spaces s hrest
  | array items => exact items.separated_tokensThen trivial hrest
  | emptyObject s => exact separated_spaces s hrest
  | object entries => exact entries.separated_tokensThen trivial hrest

theorem Items.separated_tokensThen (items : Items) {rest : List Token} (hahead : NoAtomAhead rest)
    (hrest : Separated rest) : Separated (items.tokensThen rest) := by
  cases items with
  | last b v a =>
    apply separated_spaces
    exact v.separated_tokensThen (noAtomAhead_spaces a hahead) (separated_spaces a hrest)
  | cons b v a more =>
    have hmore : Separated (.comma :: more.tokensThen rest) :=
      more.separated_tokensThen hahead hrest
    apply separated_spaces
    exact v.separated_tokensThen (noAtomAhead_spaces a trivial) (separated_spaces a hmore)

theorem Entries.separated_tokensThen (entries : Entries) {rest : List Token}
    (hahead : NoAtomAhead rest) (hrest : Separated rest) :
    Separated (entries.tokensThen rest) := by
  cases entries with
  | last b k a b' v a' =>
    have hvalue := v.separated_tokensThen (noAtomAhead_spaces a' hahead) (separated_spaces a' hrest)
    apply separated_spaces
    exact ⟨noAtomAhead_spaces a trivial, separated_spaces a (separated_spaces b' hvalue)⟩
  | cons b k a b' v a' more =>
    have hmore : Separated (.comma :: more.tokensThen rest) :=
      more.separated_tokensThen hahead hrest
    have hcomma : NoAtomAhead (Spaces.tokens a' ++ .comma :: more.tokensThen rest) :=
      noAtomAhead_spaces a' trivial
    have hvalue := v.separated_tokensThen hcomma (separated_spaces a' hmore)
    apply separated_spaces
    exact ⟨noAtomAhead_spaces a trivial, separated_spaces a (separated_spaces b' hvalue)⟩

end

theorem Padded.separated_tokens (p : Padded) : Separated p.tokens := by
  have hafter : Separated (Spaces.tokens p.after ++ []) := separated_spaces p.after trivial
  have hahead : NoAtomAhead (Spaces.tokens p.after ++ []) := noAtomAhead_spaces p.after trivial
  rw [List.append_nil] at hafter hahead
  exact separated_spaces p.before (p.value.separated_tokensThen hahead hafter)

/-! ### The frames that the machine passes through -/

/-- The frame after some blanks. -/
def Frame.spaces (s : Spaces) : Frame → Frame
  | .start b => .start (s.reverse ++ b)
  | .finished b v a => .finished b v (s.reverse ++ a)
  | .arrayOpen b => .arrayOpen (s.reverse ++ b)
  | .element done b => .element done (s.reverse ++ b)
  | .afterElement done i => .afterElement done { i with after := s.reverse ++ i.after }
  | .objectOpen b => .objectOpen (s.reverse ++ b)
  | .name done b => .name done (s.reverse ++ b)
  | .colon done b k a => .colon done b k (s.reverse ++ a)
  | .member done b k a b' => .member done b k a (s.reverse ++ b')
  | .afterMember done e => .afterMember done { e with after := s.reverse ++ e.after }

theorem Frame.spaces_cons (c : Blank) (s : Spaces) (f : Frame) :
    f.spaces (c :: s) = (f.space c).spaces s := by
  cases f <;> simp [Frame.spaces, Frame.space]

theorem Reading.run_spaces (s : Spaces) (f : Frame) (around : List Frame) (rest : List Token) :
    run ⟨f, around⟩ (Spaces.tokens s ++ rest) = run ⟨f.spaces s, around⟩ rest := by
  induction s generalizing f with
  | nil => cases f <;> rfl
  | cons c s ih =>
    rw [Frame.spaces_cons, ← ih (f.space c)]
    rfl

theorem Frame.expectsValue_of_put {f f' : Frame} {v : Tree} (h : f.put v = some f') :
    f.expectsValue = true := by
  cases f with
  | start | arrayOpen | element | member => rfl
  | finished | afterElement | objectOpen | name | colon | afterMember =>
    simp [Frame.put] at h

/-- An array with the elements that have been read before these, the latest first. -/
def Items.after (done : List Item) (items : Items) : Items :=
  done.foldl (fun rest i => .cons i.before.reverse i.value i.after.reverse rest) items

/-- An object with the members that have been read before these, the latest first. -/
def Entries.after (done : List Entry) (entries : Entries) : Entries :=
  done.foldl (fun rest e =>
      .cons e.before.reverse e.name e.afterName.reverse e.beforeValue.reverse e.value
        e.after.reverse rest)
    entries

theorem Reading.run_openArray {f f' : Frame} {v : Tree} (h : f.put v = some f')
    (around : List Frame) (rest : List Token) :
    run ⟨f, around⟩ (.openArray :: rest) = run ⟨.arrayOpen [], f :: around⟩ rest := by
  simp [run, step, Frame.expectsValue_of_put h]

theorem Reading.run_openObject {f f' : Frame} {v : Tree} (h : f.put v = some f')
    (around : List Frame) (rest : List Token) :
    run ⟨f, around⟩ (.openObject :: rest) = run ⟨.objectOpen [], f :: around⟩ rest := by
  simp [run, step, Frame.expectsValue_of_put h]

theorem Reading.run_closeArray {top f f' : Frame} {v : Tree} (hclose : top.closeArray = some v)
    (hput : f.put v = some f') (around : List Frame) (rest : List Token) :
    run ⟨top, f :: around⟩ (.closeArray :: rest) = run ⟨f', around⟩ rest := by
  simp [run, step, close, hclose, hput]

theorem Reading.run_closeObject {top f f' : Frame} {v : Tree} (hclose : top.closeObject = some v)
    (hput : f.put v = some f') (around : List Frame) (rest : List Token) :
    run ⟨top, f :: around⟩ (.closeObject :: rest) = run ⟨f', around⟩ rest := by
  simp [run, step, close, hclose, hput]

theorem Reading.run_name {f f' : Frame} {k : Quoted} (hput : f.put (.atom (.string k)) = none)
    (hname : f.putName k = some f') (around : List Frame) (rest : List Token) :
    run ⟨f, around⟩ (.atom (.string k) :: rest) = run ⟨f', around⟩ rest := by
  simp [run, step, hput, hname]

/-- A frame in which the next element comes after those in `done`. -/
def Frame.Awaits (f : Frame) (done : List Item) : Prop :=
  ∀ b v, (f.spaces b).put v = some (.afterElement done ⟨b.reverse, v, []⟩)

/-- A frame in which the next member comes after those in `done`. -/
def Frame.AwaitsName (f : Frame) (done : List Entry) : Prop :=
  ∀ b k, (f.spaces b).put (.atom (.string k)) = none ∧
    (f.spaces b).putName k = some (.colon done b.reverse k [])

theorem Frame.arrayOpen_awaits : Frame.Awaits (.arrayOpen []) [] := by
  intro b v
  simp [Frame.spaces, Frame.put]

theorem Frame.element_awaits (done : List Item) : Frame.Awaits (.element done []) done := by
  intro b v
  simp [Frame.spaces, Frame.put]

theorem Frame.objectOpen_awaitsName : Frame.AwaitsName (.objectOpen []) [] := by
  intro b k
  simp [Frame.spaces, Frame.put, Frame.putName]

theorem Frame.name_awaitsName (done : List Entry) : Frame.AwaitsName (.name done []) done := by
  intro b k
  simp [Frame.spaces, Frame.put, Frame.putName]

/-! ### The run over a tree -/

mutual

theorem Tree.run_tokensThen (t : Tree) {f f' : Frame} (hput : f.put t = some f')
    (around : List Frame) (rest : List Token) :
    Reading.run ⟨f, around⟩ (t.tokensThen rest) = Reading.run ⟨f', around⟩ rest := by
  cases t with
  | atom a => simp [Tree.tokensThen, Reading.run, Reading.step, hput]
  | emptyArray s =>
    have hclose : (Frame.spaces s (.arrayOpen [])).closeArray = some (.emptyArray s) := by
      simp [Frame.spaces, Frame.closeArray]
    rw [Tree.tokensThen, Reading.run_openArray hput, Reading.run_spaces,
      Reading.run_closeArray hclose hput]
  | array items =>
    rw [Tree.tokensThen, Reading.run_openArray hput]
    exact items.run_tokensThen Frame.arrayOpen_awaits hput around rest
  | emptyObject s =>
    have hclose : (Frame.spaces s (.objectOpen [])).closeObject = some (.emptyObject s) := by
      simp [Frame.spaces, Frame.closeObject]
    rw [Tree.tokensThen, Reading.run_openObject hput, Reading.run_spaces,
      Reading.run_closeObject hclose hput]
  | object entries =>
    rw [Tree.tokensThen, Reading.run_openObject hput]
    exact entries.run_tokensThen Frame.objectOpen_awaitsName hput around rest

theorem Items.run_tokensThen (items : Items) {g outer outer' : Frame} {done : List Item}
    (hawaits : g.Awaits done) (hput : outer.put (.array (items.after done)) = some outer')
    (around : List Frame) (rest : List Token) :
    Reading.run ⟨g, outer :: around⟩ (items.tokensThen (.closeArray :: rest)) =
      Reading.run ⟨outer', around⟩ rest := by
  cases items with
  | last b v a =>
    have hclose : (Frame.spaces a (.afterElement done ⟨b.reverse, v, []⟩)).closeArray =
        some (.array ((Items.last b v a).after done)) := by
      simp [Frame.spaces, Frame.closeArray, Items.close, Items.after]
    rw [Items.tokensThen, Reading.run_spaces, v.run_tokensThen (hawaits b v), Reading.run_spaces,
      Reading.run_closeArray hclose hput]
  | cons b v a more =>
    have hmore : (Items.cons b v a more).after done =
        more.after (⟨b.reverse, v, a.reverse⟩ :: done) := by
      simp [Items.after]
    have hcomma : ∀ tokens, Reading.run ⟨Frame.spaces a (.afterElement done ⟨b.reverse, v, []⟩),
        outer :: around⟩ (.comma :: tokens) =
        Reading.run ⟨.element (⟨b.reverse, v, a.reverse⟩ :: done) [], outer :: around⟩ tokens := by
      intro tokens
      simp [Frame.spaces, Reading.run, Reading.step]
    rw [hmore] at hput
    rw [Items.tokensThen, Reading.run_spaces, v.run_tokensThen (hawaits b v), Reading.run_spaces,
      hcomma]
    exact more.run_tokensThen (Frame.element_awaits _) hput around rest

theorem Entries.run_tokensThen (entries : Entries) {g outer outer' : Frame} {done : List Entry}
    (hawaits : g.AwaitsName done) (hput : outer.put (.object (entries.after done)) = some outer')
    (around : List Frame) (rest : List Token) :
    Reading.run ⟨g, outer :: around⟩ (entries.tokensThen (.closeObject :: rest)) =
      Reading.run ⟨outer', around⟩ rest := by
  -- Up to the value both forms run alike: past the name, then past the colon.
  have hmember : ∀ b k a b' tokens,
      Reading.run ⟨g, outer :: around⟩ (Spaces.tokens b ++ .atom (.string k) ::
        (Spaces.tokens a ++ .colon :: (Spaces.tokens b' ++ tokens))) =
      Reading.run ⟨.member done b.reverse k a.reverse b'.reverse, outer :: around⟩ tokens := by
    intro b k a b' tokens
    obtain ⟨hvalue, hname⟩ := hawaits b k
    rw [Reading.run_spaces, Reading.run_name hvalue hname, Reading.run_spaces]
    have hcolon : ∀ tokens, Reading.run ⟨Frame.spaces a (.colon done b.reverse k []),
        outer :: around⟩ (.colon :: tokens) =
        Reading.run ⟨.member done b.reverse k a.reverse [], outer :: around⟩ tokens := by
      intro tokens
      simp [Frame.spaces, Reading.run, Reading.step]
    rw [hcolon, Reading.run_spaces]
    simp [Frame.spaces]
  cases entries with
  | last b k a b' v a' =>
    have hclose : (Frame.spaces a' (.afterMember done
        ⟨b.reverse, k, a.reverse, b'.reverse, v, []⟩)).closeObject =
        some (.object ((Entries.last b k a b' v a').after done)) := by
      simp [Frame.spaces, Frame.closeObject, Entries.close, Entries.after]
    rw [Entries.tokensThen, hmember, v.run_tokensThen rfl, Reading.run_spaces,
      Reading.run_closeObject hclose hput]
  | cons b k a b' v a' more =>
    have hmore : (Entries.cons b k a b' v a' more).after done =
        more.after (⟨b.reverse, k, a.reverse, b'.reverse, v, a'.reverse⟩ :: done) := by
      simp [Entries.after]
    have hcomma : ∀ tokens, Reading.run ⟨Frame.spaces a' (.afterMember done
        ⟨b.reverse, k, a.reverse, b'.reverse, v, []⟩), outer :: around⟩ (.comma :: tokens) =
        Reading.run ⟨.name (⟨b.reverse, k, a.reverse, b'.reverse, v, a'.reverse⟩ :: done) [],
          outer :: around⟩ tokens := by
      intro tokens
      simp [Frame.spaces, Reading.run, Reading.step]
    rw [hmore] at hput
    rw [Entries.tokensThen, hmember, v.run_tokensThen rfl, Reading.run_spaces, hcomma]
    exact more.run_tokensThen (Frame.name_awaitsName _) hput around rest

end

theorem Padded.ofTokens?_tokens (p : Padded) : ofTokens? p.tokens = some p := by
  have hvalue := p.value.run_tokensThen (f := .start p.before.reverse) rfl []
    (Spaces.tokens p.after ++ [])
  have hrun : Reading.run ⟨.start [], []⟩ p.tokens =
      some ⟨.finished p.before.reverse p.value p.after.reverse, []⟩ := by
    rw [tokens, Reading.run_spaces, ← List.append_nil (Spaces.tokens p.after), Frame.spaces,
      List.append_nil p.before.reverse, hvalue, Reading.run_spaces]
    simp [Frame.spaces, Reading.run]
  rw [ofTokens?, hrun]
  simp [Reading.result?]

/-- A text is read as the one tree that it is spelled by. -/
theorem Padded.parse?_text (p : Padded) : parse? p.text = some p := by
  rw [parse?, text, tokens?_text p.separated_tokens]
  exact p.ofTokens?_tokens

theorem Tree.parse?_text (t : Tree) : parse? t.text = some t := by
  have hpadded : (⟨[], t, []⟩ : Padded).text = t.text := rfl
  rw [parse?, ← hpadded, Padded.parse?_text]
  rfl

end DocumentSearch.Json
