import DocumentSearch.Json.Token

/-!
# Syntax trees of JSON text

A tree holds everything that a JSON text is spelled with: its values, the order and the repetition
of its members, and the white space. So a tree *is* a derivation of its text, `text` gives the text
back symbol for symbol, and any piece of a body can be handed on as it came.

Trees are built from tokens by a machine with a stack of open brackets. The stack is a list, so no
depth of nesting is too deep for it; limits on depth belong to those who read values out of a tree.
-/

namespace DocumentSearch.Json

open Utf8 (Symbol)

abbrev Spaces := List Blank

mutual

/-- A value as it is spelled. -/
inductive Tree where
  | atom (a : Atom)
  | emptyArray (inner : Spaces)
  | array (items : Items)
  | emptyObject (inner : Spaces)
  | object (entries : Entries)

/-- The elements of an array that has some, each with the white space around it. -/
inductive Items where
  | last (before : Spaces) (value : Tree) (after : Spaces)
  | cons (before : Spaces) (value : Tree) (after : Spaces) (rest : Items)

/-- The members of an object that has some, each with the white space around its name and its
value. -/
inductive Entries where
  | last (before : Spaces) (name : Quoted) (afterName beforeValue : Spaces) (value : Tree)
      (after : Spaces)
  | cons (before : Spaces) (name : Quoted) (afterName beforeValue : Spaces) (value : Tree)
      (after : Spaces) (rest : Entries)

end

/-- A whole text: a value with white space around it. -/
structure Padded where
  before : Spaces
  value : Tree
  after : Spaces

def Items.toList : Items → List Tree
  | .last _ v _ => [v]
  | .cons _ v _ rest => v :: rest.toList

def Entries.toList : Entries → List (Quoted × Tree)
  | .last _ k _ _ v _ => [(k, v)]
  | .cons _ k _ _ v _ rest => (k, v) :: rest.toList

/-- The elements of an array; nothing else has any. -/
def Tree.items? : Tree → Option (List Tree)
  | .emptyArray _ => some []
  | .array items => some items.toList
  | _ => none

/-- The members of an object in the order they are spelled, repetitions included. -/
def Tree.entries? : Tree → Option (List (Quoted × Tree))
  | .emptyObject _ => some []
  | .object entries => some entries.toList
  | _ => none

/-! ### The tokens and the text of a tree -/

def Spaces.tokens (s : Spaces) : List Token := s.map Token.blank

mutual

/-- The tokens of a tree, then `rest`. -/
def Tree.tokensThen : Tree → List Token → List Token
  | .atom a, rest => .atom a :: rest
  | .emptyArray s, rest => .openArray :: (Spaces.tokens s ++ .closeArray :: rest)
  | .array items, rest => .openArray :: items.tokensThen (.closeArray :: rest)
  | .emptyObject s, rest => .openObject :: (Spaces.tokens s ++ .closeObject :: rest)
  | .object entries, rest => .openObject :: entries.tokensThen (.closeObject :: rest)

def Items.tokensThen : Items → List Token → List Token
  | .last b v a, rest => Spaces.tokens b ++ v.tokensThen (Spaces.tokens a ++ rest)
  | .cons b v a more, rest =>
    Spaces.tokens b ++ v.tokensThen (Spaces.tokens a ++ .comma :: more.tokensThen rest)

def Entries.tokensThen : Entries → List Token → List Token
  | .last b k a b' v a', rest =>
    Spaces.tokens b ++ .atom (.string k) :: (Spaces.tokens a ++ .colon ::
      (Spaces.tokens b' ++ v.tokensThen (Spaces.tokens a' ++ rest)))
  | .cons b k a b' v a' more, rest =>
    Spaces.tokens b ++ .atom (.string k) :: (Spaces.tokens a ++ .colon ::
      (Spaces.tokens b' ++ v.tokensThen (Spaces.tokens a' ++ .comma :: more.tokensThen rest)))

end

def Tree.tokens (t : Tree) : List Token := t.tokensThen []

def Padded.tokens (t : Padded) : List Token :=
  Spaces.tokens t.before ++ t.value.tokensThen (Spaces.tokens t.after)

/-- The symbols that a tree is spelled with. -/
def Tree.text (t : Tree) : List Symbol := t.tokens.flatMap Token.text

/-- The symbols that a whole text is spelled with. -/
def Padded.text (t : Padded) : List Symbol := t.tokens.flatMap Token.text

/-! ### Building a tree -/

/-- An element that has been read, with the white space around it, the latest blank first. -/
structure Item where
  before : Spaces
  value : Tree
  after : Spaces

/-- A member that has been read, with the white space around its parts, the latest blank first. -/
structure Entry where
  before : Spaces
  name : Quoted
  afterName : Spaces
  beforeValue : Spaces
  value : Tree
  after : Spaces

/-- The elements of an array of which `i` is the last, those before it latest first. -/
def Items.close (i : Item) (done : List Item) : Items :=
  done.foldl (fun rest i => .cons i.before.reverse i.value i.after.reverse rest)
    (.last i.before.reverse i.value i.after.reverse)

/-- The members of an object of which `e` is the last, those before it latest first. -/
def Entries.close (e : Entry) (done : List Entry) : Entries :=
  done.foldl (fun rest e =>
      .cons e.before.reverse e.name e.afterName.reverse e.beforeValue.reverse e.value
        e.after.reverse rest)
    (.last e.before.reverse e.name e.afterName.reverse e.beforeValue.reverse e.value
      e.after.reverse)

/-- Where the reading of a text stands inside one pair of brackets, or outside all. Whatever has
been read at that place, blanks as well as elements and members, comes latest first. -/
inductive Frame where
  | start (before : Spaces)
  | finished (before : Spaces) (value : Tree) (after : Spaces)
  | arrayOpen (inner : Spaces)
  | element (done : List Item) (before : Spaces)
  | afterElement (done : List Item) (item : Item)
  | objectOpen (inner : Spaces)
  | name (done : List Entry) (before : Spaces)
  | colon (done : List Entry) (before : Spaces) (name : Quoted) (afterName : Spaces)
  | member (done : List Entry) (before : Spaces) (name : Quoted) (afterName beforeValue : Spaces)
  | afterMember (done : List Entry) (entry : Entry)

/-- Keeps one blank at the place where the reading stands. -/
def Frame.space (c : Blank) : Frame → Frame
  | .start b => .start (c :: b)
  | .finished b v a => .finished b v (c :: a)
  | .arrayOpen s => .arrayOpen (c :: s)
  | .element done b => .element done (c :: b)
  | .afterElement done i => .afterElement done { i with after := c :: i.after }
  | .objectOpen s => .objectOpen (c :: s)
  | .name done b => .name done (c :: b)
  | .colon done b k a => .colon done b k (c :: a)
  | .member done b k a b' => .member done b k a (c :: b')
  | .afterMember done e => .afterMember done { e with after := c :: e.after }

/-- Whether a value may begin here. -/
def Frame.expectsValue : Frame → Bool
  | .start _ | .arrayOpen _ | .element _ _ | .member .. => true
  | _ => false

/-- Puts a finished value where one may stand. -/
def Frame.put (v : Tree) : Frame → Option Frame
  | .start b => some (.finished b v [])
  | .arrayOpen b => some (.afterElement [] ⟨b, v, []⟩)
  | .element done b => some (.afterElement done ⟨b, v, []⟩)
  | .member done b k a b' => some (.afterMember done ⟨b, k, a, b', v, []⟩)
  | _ => none

/-- Puts a string where a member's name may stand. -/
def Frame.putName (k : Quoted) : Frame → Option Frame
  | .objectOpen b => some (.colon [] b k [])
  | .name done b => some (.colon done b k [])
  | _ => none

/-- The array that ends here. -/
def Frame.closeArray : Frame → Option Tree
  | .arrayOpen s => some (.emptyArray s.reverse)
  | .afterElement done i => some (.array (.close i done))
  | _ => none

/-- The object that ends here. -/
def Frame.closeObject : Frame → Option Tree
  | .objectOpen s => some (.emptyObject s.reverse)
  | .afterMember done e => some (.object (.close e done))
  | _ => none

/-- The frame where the reading stands, and those around it, from the inside out. -/
structure Reading where
  top : Frame
  around : List Frame

/-- Ends a bracket: its value goes into the frame around it. -/
def Reading.close (value : Option Tree) (around : List Frame) : Option Reading :=
  match value, around with
  | some v, f :: around => (f.put v).map fun f => ⟨f, around⟩
  | _, _ => none

/-- Reads one token. -/
def Reading.step (r : Reading) : Token → Option Reading
  | .blank c => some { r with top := r.top.space c }
  | .atom a =>
    match r.top.put (.atom a) with
    | some f => some { r with top := f }
    | none =>
      match a with
      | .string k => (r.top.putName k).map fun f => { r with top := f }
      | _ => none
  | .openArray => if r.top.expectsValue then some ⟨.arrayOpen [], r.top :: r.around⟩ else none
  | .openObject => if r.top.expectsValue then some ⟨.objectOpen [], r.top :: r.around⟩ else none
  | .closeArray => close r.top.closeArray r.around
  | .closeObject => close r.top.closeObject r.around
  | .comma =>
    match r.top with
    | .afterElement done i => some { r with top := .element (i :: done) [] }
    | .afterMember done e => some { r with top := .name (e :: done) [] }
    | _ => none
  | .colon =>
    match r.top with
    | .colon done b k a => some { r with top := .member done b k a [] }
    | _ => none

/-- The text that has been read, if it is complete. -/
def Reading.result? : Reading → Option Padded
  | ⟨.finished b v a, []⟩ => some ⟨b.reverse, v, a.reverse⟩
  | _ => none

/-- Reads tokens. -/
def Reading.run (r : Reading) : List Token → Option Reading
  | [] => some r
  | t :: rest =>
    match r.step t with
    | some r => r.run rest
    | none => none

/-- The tree of a token list. -/
def Padded.ofTokens? (tokens : List Token) : Option Padded :=
  match Reading.run ⟨.start [], []⟩ tokens with
  | some r => r.result?
  | none => none

/-- The tree of a text: white space, one value, white space, and nothing more. -/
def Padded.parse? (s : List Symbol) : Option Padded :=
  match tokens? s with
  | some tokens => Padded.ofTokens? tokens
  | none => none

/-- The value of a text. -/
def Tree.parse? (s : List Symbol) : Option Tree := (Padded.parse? s).map Padded.value

end DocumentSearch.Json
