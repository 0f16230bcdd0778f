import DocumentSearch.Document
import DocumentSearch.Engine.Host
import DocumentSearch.Mapping.IndexBody
import DocumentSearch.Mapping.Registry
import DocumentSearch.Store.Config

/-!
# Indexes

Creating and dropping the indexes behind the registered types. An index is created under a
versioned name and then given the name of its mapping as an alias. One that exists is left alone,
unless it is to be dropped and created again.
-/

namespace DocumentSearch

structure Store where
  config : StoreConfig
  registry : Registry

namespace Store

/-- Calls the engine and counts how the call ends. -/
def tracked (op : IndexOperation) (f : Engine → Reply Unit × Engine) : Action Unit := fun h =>
  match Action.call f h with
  | (.ok _, h) => (.ok (), h.record (.indexOperation op true))
  | (.error e, h) => (.error e, h.record (.indexOperation op false))
  | (.cancelled, h) => (.cancelled, h)

def indexExists (index : String) : Action Bool := Action.call fun e => e.indexExists index

def dropIndex (index : String) : Action Unit := tracked .drop fun e => e.indexDelete index

/-- The body that gives an index an alias. -/
def aliasBody (index aliasName : String) : Json :=
  .ofMembers [("actions", .array [.ofMembers [("add",
    .ofMembers [("index", .string index), ("alias", .string aliasName)])]])]

/-- Creates an index that does not exist, and its alias. -/
def createFresh (index : String) (aliasName : Option String) (body : String) : Action Bool :=
  (tracked .create fun e => e.indexCreate index body).thenDo fun _ =>
    match aliasName with
    | none => .done true
    | some aliasName =>
      (tracked .addAlias fun e => e.indexAlias (aliasBody index aliasName).write).thenDo fun _ =>
        .done true

/-- Creates an index; says whether it was created. -/
def createIndex (index : String) (aliasName : Option String) (body : String) (dropCreate : Bool) :
    Action Bool :=
  Action.observed .createIndex <|
    (indexExists index).thenDo fun found =>
      if found then
        if dropCreate then (dropIndex index).thenDo fun _ => createFresh index aliasName body
        else .done false
      else createFresh index aliasName body

/-- Leaves the body of an index in the mapping directory, if there is one. -/
def leaveBody (c : StoreConfig) (index body : String) : Action Unit := fun h =>
  match c.mappingDir with
  | none => (.ok (), h)
  | some dir =>
    (.ok (), { h with folder := h.folder.write dir (index ++ ".mapping.json") body })

/-- Creates the index of a mapping. -/
def createMapped (c : StoreConfig) (m : Mapping) : Action Bool :=
  let index := c.versionedIndexName m.index
  let body := m.indexBody.writeIndented
  (leaveBody c index body).thenDo fun _ =>
    createIndex index (some m.index) body c.dropCreateIndexes

/-- Creates the indexes of mappings one after the other; says how many were created. -/
def createEach (c : StoreConfig) : List Mapping → Action Nat
  | [] => .done 0
  | m :: rest =>
    (createMapped c m).thenDo fun created =>
      (createEach c rest).map fun n => n + if created then 1 else 0

/-- Creates the indexes of all registered types. -/
def createIndexes (s : Store) : Action Nat := createEach s.config s.registry.all

/-- Creates the index of one registered type. -/
def createTypeIndex (s : Store) (key : String) : Action Bool :=
  match s.registry.get? key with
  | none => .fail (.unmappedType key)
  | some m => createMapped s.config m

def register (s : Store) (t : RecordType) : Store :=
  { s with registry := s.registry.register t.key t.mapping }

end Store

end DocumentSearch
