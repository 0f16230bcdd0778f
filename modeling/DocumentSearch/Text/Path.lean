/-!
# Dotted paths

A property is named by a path: segments with a dot between them. Every text is such a path, the
empty one having one empty segment, and the segments joined again give the path.
-/

namespace DocumentSearch.Path

/-- Splits at every `mark`. There is always at least one part. -/
def split (mark : Char) : List Char → List (List Char)
  | [] => [[]]
  | c :: rest =>
    if c = mark then [] :: split mark rest
    else
      match split mark rest with
      | [] => [[c]]
      | s :: more => (c :: s) :: more

/-- The segments of a path. -/
def segments (path : String) : List String := (split '.' path.toList).map String.ofList

/-- The path that segments make. -/
def join : List String → String
  | [] => ""
  | [s] => s
  | s :: rest => s ++ "." ++ join rest

/-- The path one segment below another. -/
def child (path segment : String) : String := path ++ "." ++ segment

/-- The texts before each dot of `rest`, then all of it, each with `read` in front. -/
def cuts (read : List Char) : List Char → List (List Char)
  | [] => [read]
  | c :: rest =>
    if c = '.' then read :: cuts (read ++ [c]) rest else cuts (read ++ [c]) rest

/-- The path's ancestors from the outermost inwards, itself last. -/
def ancestors (path : String) : List String := (cuts [] path.toList).map String.ofList

/-- What follows `start` in a list that begins with it. -/
def after? : List Char → List Char → Option (List Char)
  | [], rest => some rest
  | _ :: _, [] => none
  | a :: start, b :: rest => if a = b then after? start rest else none

/-- The part of `name` below `path`, when `name` is `path`, a dot and more. -/
def below? (path name : String) : Option String :=
  (after? (path.toList ++ ['.']) name.toList).map String.ofList

end DocumentSearch.Path
