import DocumentSearch.Json.Form

/-!
# Configuration

What a store is configured with. Its text form is a record in which every field may be left out.
-/

namespace DocumentSearch

open Json (Tree)

structure StoreConfig where
  /-- How many continuations a scroll makes at most. -/
  maxScrollRounds : Option Nat
  /-- Whether an index that exists is dropped and created again. -/
  dropCreateIndexes : Bool
  indexVersionSuffix : String
  /-- The directory in which the bodies of indexes are left. -/
  mappingDir : Option String
  deriving DecidableEq, Repr

namespace StoreConfig

def standard : StoreConfig := ⟨none, false, "_v1", none⟩

/-- The name of the index that stands behind an alias. -/
def versionedIndexName (c : StoreConfig) (aliasName : String) : String :=
  aliasName ++ c.indexVersionSuffix

def ofTree? (depth : Nat) (t : Tree) : Option StoreConfig :=
  let names :=
    ["max_scroll_rounds", "drop_create_indexes", "index_version_suffix", "mapping_dir"]
  match t.inside? depth, t.fields? names with
  | some _, some [rounds, drop, suffix, dir] => do
    let rounds ←
      Json.optionalField standard.maxScrollRounds (Tree.orNull? (Tree.natBelow? 0x100000000)) rounds
    let drop ← Json.optionalField standard.dropCreateIndexes Tree.bool? drop
    let suffix ← Json.optionalField standard.indexVersionSuffix Tree.string? suffix
    let dir ← Json.optionalField standard.mappingDir (Tree.orNull? Tree.string?) dir
    some ⟨rounds, drop, suffix, dir⟩
  | _, _ => none

end StoreConfig

end DocumentSearch
