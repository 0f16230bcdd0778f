import DocumentSearch.Clause.Draft
import DocumentSearch.Proofs.Clause.Part

/-!
# Putting a scope together

A draft takes one part after another and keeps at most one nested scope open. Between two parts it
stands at the clauses of the parts so far, except that the last run of leaves on one many root may
still be open: `openWith` is that state, and `endNested_addAll_openWith` is what every sequence of
parts makes of it. A scope that is closed therefore holds exactly the grouped clauses of its parts,
whatever was open around it.
-/

namespace DocumentSearch

namespace Draft

def pushAll (d : Draft) (clauses : List Clause) : Draft := clauses.foldl push d

def add (d : Draft) (p : Part) : Draft :=
  match p with
  | .bare ⟨some root, l⟩ => (d.startNested root).emit l
  | .bare ⟨none, l⟩ => d.endNested.emit l
  | .bool occur clauses => d.endNested.push (.bool occur clauses)

def addAll (d : Draft) (parts : List Part) : Draft := parts.foldl add d

@[simp] theorem addAll_nil (d : Draft) : d.addAll [] = d := rfl

@[simp] theorem addAll_cons (d : Draft) (p : Part) (parts : List Part) :
    d.addAll (p :: parts) = (d.add p).addAll parts := rfl

theorem emit_prepare (d : Draft) (target : FieldTarget) (l : LeafClause) :
    (d.prepare target).emit l = d.add (.bare ⟨target.manyRoot, l⟩) := by
  unfold prepare add
  cases target.manyRoot <;> rfl

/-! ### Clauses beside a nested scope -/

@[simp] theorem nested_push (d : Draft) (c : Clause) : (d.push c).nested = d.nested := by
  unfold push
  split <;> rfl

@[simp] theorem occur_push (d : Draft) (c : Clause) : (d.push c).occur = d.occur := by
  unfold push occur
  cases d.scopes <;> rfl

@[simp] theorem pushAll_nil (d : Draft) : d.pushAll [] = d := rfl

@[simp] theorem pushAll_cons (d : Draft) (c : Clause) (clauses : List Clause) :
    d.pushAll (c :: clauses) = (d.push c).pushAll clauses := rfl

theorem pushAll_append (d : Draft) (left right : List Clause) :
    d.pushAll (left ++ right) = (d.pushAll left).pushAll right :=
  List.foldl_append

@[simp] theorem nested_pushAll (d : Draft) (clauses : List Clause) :
    (d.pushAll clauses).nested = d.nested := by
  induction clauses generalizing d with
  | nil => rfl
  | cons c rest ih => rw [pushAll_cons, ih, nested_push]

@[simp] theorem occur_pushAll (d : Draft) (clauses : List Clause) :
    (d.pushAll clauses).occur = d.occur := by
  induction clauses generalizing d with
  | nil => rfl
  | cons c rest ih => rw [pushAll_cons, ih, occur_push]

theorem pushAll_scope (s : Scope) (scopes : List Scope) (nested : Option NestedScope)
    (root clauses : List Clause) :
    pushAll ⟨s :: scopes, nested, root⟩ clauses =
      ⟨⟨s.occur, s.clauses ++ clauses⟩ :: scopes, nested, root⟩ := by
  induction clauses generalizing s with
  | nil => simp
  | cons c rest ih =>
    rw [pushAll_cons]
    change pushAll ⟨⟨s.occur, s.clauses ++ [c]⟩ :: scopes, nested, root⟩ rest = _
    rw [ih, List.append_assoc, List.singleton_append]

/-! ### Ending a nested scope -/

theorem endNested_of_none {d : Draft} (h : d.nested = none) : d.endNested = d := by
  simp [endNested, h]

@[simp] theorem nested_endNested (d : Draft) : d.endNested.nested = none := by
  unfold endNested
  split
  · assumption
  · dsimp only
    split <;> simp

theorem nestedFilter_of_ne_nil {n : NestedScope} (h : n.clauses ≠ []) :
    nestedFilter n = some (Part.filterOf n.occur n.clauses) := by
  obtain ⟨path, occur, clauses⟩ := n
  match clauses, h with
  | [c], _ => rfl
  | c :: c' :: rest, _ => rfl

/-! ### The last run -/

/-- The draft with its last run still open: `run` is what stands in the nested scope on `root`. -/
def openWith (d : Draft) (root : String) (run : List Part) : Draft :=
  if run = [] then d else { d with nested := some ⟨root, d.occur, run.map Part.clause⟩ }

@[simp] theorem openWith_nil (d : Draft) (root : String) : d.openWith root [] = d := rfl

theorem openWith_of_ne_nil {run : List Part} (h : run ≠ []) (d : Draft) (root : String) :
    d.openWith root run = { d with nested := some ⟨root, d.occur, run.map Part.clause⟩ } :=
  if_neg h

variable {d : Draft} {root : String} {run : List Part} {p : Part}

/-- What is open when the scope ends is closed as one run. -/
theorem endNested_openWith (hd : d.nested = none) (hrun : ∀ q ∈ run, q.manyRoot = some root) :
    (d.openWith root run).endNested = d.pushAll (Part.grouped d.occur run) := by
  by_cases hne : run = []
  · subst hne
    simpa using endNested_of_none hd
  · rw [openWith_of_ne_nil hne, Part.grouped_of_same hne hrun]
    have hfilter : nestedFilter ⟨root, d.occur, run.map Part.clause⟩ =
        some (Part.filterOf d.occur (run.map Part.clause)) :=
      nestedFilter_of_ne_nil (by simpa using hne)
    obtain ⟨scopes, nested, clauses⟩ := d
    subst hd
    simp [endNested, hfilter]

/-- A leaf on the open root joins the run. -/
theorem add_openWith (hd : d.nested = none) (hp : p.manyRoot = some root) :
    (d.openWith root run).add p = d.openWith root (run ++ [p]) := by
  cases p with
  | bool occur clauses => simp [Part.manyRoot] at hp
  | bare l =>
    obtain ⟨manyRoot, l⟩ := l
    obtain rfl : manyRoot = some root := hp
    rw [openWith_of_ne_nil (by simp : run ++ [_] ≠ [])]
    by_cases hne : run = []
    · subst hne
      simp [add, startNested, hd, emit, Part.clause]
    · simp [openWith_of_ne_nil hne, add, startNested, emit, Part.clause]

theorem startNested_of_none (hd : d.nested = none) (path : String) :
    d.startNested path = { d with nested := some ⟨path, d.occur, []⟩ } := by
  simp [startNested, hd]

/-- Any other part ends the run first. -/
theorem add_of_ne_root (hd : d.nested = none) (hp : p.manyRoot ≠ some root) :
    (d.openWith root run).add p = (d.openWith root run).endNested.add p := by
  have hended : (d.openWith root run).endNested.nested = none := nested_endNested _
  by_cases hne : run = []
  · subst hne
    rw [openWith_nil, endNested_of_none hd]
  cases p with
  | bool occur clauses => simp [add, endNested_of_none hended]
  | bare l =>
    obtain ⟨manyRoot, l⟩ := l
    cases manyRoot with
    | none => simp [add, endNested_of_none hended]
    | some other =>
      have hother : root ≠ other := fun h => hp (by simp [Part.manyRoot, h])
      simp only [add]
      rw [startNested_of_none hended]
      simp [startNested, openWith_of_ne_nil hne, hother]

theorem add_of_none (hd : d.nested = none) (hp : p.manyRoot = none) :
    d.add p = d.push p.clause := by
  cases p with
  | bool occur clauses => simp [add, endNested_of_none hd, Part.clause]
  | bare l =>
    obtain ⟨manyRoot, l⟩ := l
    obtain rfl : manyRoot = none := hp
    simp [add, endNested_of_none hd, emit, hd, Part.clause]

/-- Whatever run is open, parts come to their grouped clauses once the scope ends. The induction is
on the parts still to come; the open run moves into the closed clauses when a part does not belong
to it. -/
theorem endNested_addAll_openWith (hd : d.nested = none)
    (hrun : ∀ q ∈ run, q.manyRoot = some root) (parts : List Part) :
    ((d.openWith root run).addAll parts).endNested =
      d.pushAll (Part.grouped d.occur (run ++ parts)) := by
  induction parts generalizing d root run with
  | nil => simpa using endNested_openWith hd hrun
  | cons p rest ih =>
    rw [addAll_cons]
    by_cases hp : p.manyRoot = some root
    · rw [add_openWith hd hp, ih hd, List.append_assoc, List.singleton_append]
      intro q hq
      rcases List.mem_append.mp hq with hq | hq
      · exact hrun q hq
      · rwa [List.mem_singleton.mp hq]
    · rw [add_of_ne_root hd hp, endNested_openWith hd hrun, Part.grouped_append_cons hrun hp,
        pushAll_append]
      obtain ⟨closed, hclosed⟩ : ∃ closed, closed = d.pushAll (Part.grouped d.occur run) := ⟨_, rfl⟩
      have hnone : closed.nested = none := by simpa [hclosed] using hd
      have hoccur : d.occur = closed.occur := by simp [hclosed]
      rw [← hclosed, hoccur]
      cases hother : p.manyRoot with
      | some other =>
        have hopen : (closed.openWith other []).add p = closed.openWith other [p] :=
          add_openWith hnone hother
        rw [openWith_nil] at hopen
        rw [hopen, ih hnone (by simpa using hother), List.singleton_append]
      | none =>
        have hpushed : (closed.push p.clause).nested = none := by simpa using hnone
        rw [add_of_none hnone hother, Part.grouped_cons_of_none hother, pushAll_cons]
        rw [← openWith_nil (closed.push p.clause) "", ih hpushed (by simp)]
        simp

/-! ### Whole scopes -/

theorem endNested_addAll (hd : d.nested = none) (parts : List Part) :
    (d.addAll parts).endNested = d.pushAll (Part.grouped d.occur parts) := by
  rw [← openWith_nil d "", endNested_addAll_openWith hd (by simp)]
  simp

/-- A scope that is opened, filled and closed is one part, whatever was open around it. -/
theorem endBool_addAll_startBool (d : Draft) (occur : Occur) (parts : List Part) :
    ((d.startBool occur).addAll parts).endBool =
      .ok (d.add (.bool occur (Part.grouped occur parts))) := by
  have hnone : d.endNested.nested = none := nested_endNested d
  have hfilled : ((d.startBool occur).addAll parts).endNested =
      ⟨⟨occur, Part.grouped occur parts⟩ :: d.endNested.scopes, none, d.endNested.root⟩ := by
    have hopened : (d.startBool occur).nested = none := hnone
    rw [endNested_addAll hopened]
    simp [startBool, pushAll_scope, Draft.occur]
  rw [endBool, hfilled, ← hnone]
  rfl

/-- A draft of one part is finished as that part alone. -/
theorem finish_add_blank (p : Part) : (blank.add p).finish = .ok p.alone := by
  have hended : (blank.add p).endNested = blank.pushAll (Part.grouped .must [p]) :=
    endNested_addAll rfl [p]
  rw [finish, hended, Part.grouped_singleton]
  rfl

end Draft

end DocumentSearch
