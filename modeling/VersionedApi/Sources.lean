import VersionedApi.Action.Read
import VersionedApi.Docblock.Source
import VersionedApi.Representation.Basic

/-!
# Documented sources

* `Sources` : the docblocks of actions and of representations that a project has;
* `actionsIn` : the documented methods of a source text that are named after an HTTP method;
* `representationsIn` : the documented classes of a source text with their documented members.
-/

namespace VersionedApi

open VersionedApi.Text VersionedApi.Docblock

/-- Docblocks to be compiled, in the order in which they were found. -/
structure Sources where
  actions : List ActionSource := []
  representations : List RepresentationSource := []
deriving DecidableEq, Repr

def httpMethods : List String := ["GET", "POST", "PUT", "PATCH", "DELETE", "HEAD", "OPTIONS"]

/-- The action that a block documents. -/
def actionOf? (scan : Scan) (file : Option String) (block : Block) : Option ActionSource :=
  match block.declaration, block.owner with
  | some (.ofMethod name), some owner =>
    let method := String.ofList (upper name.toList)
    if httpMethods.contains method && hasMarker block.text then
      some
        { owner := scan.qualify owner
          method
          docblock := block.text
          file
          line := block.firstLine }
    else none
  | _, _ => none

def actionsIn (content : String) (file : Option String) : List ActionSource :=
  let scan := scan content
  scan.blocks.filterMap (actionOf? scan file)

/-- A source with one more of its blocks: the docblock of the class itself, or that of a member. -/
def RepresentationSource.add (source : RepresentationSource) (block : Block) :
    RepresentationSource :=
  match block.declaration with
  | some (.ofClass _) => { source with docblock := block.text, line := block.firstLine }
  | some (.ofMethod name) => { source with members := source.members ++ [⟨name, block.text⟩] }
  | none => source

/-- The sources with one more block, which goes to the first source whose class has the given
spelling, or else to a new one behind them. -/
def addBlock (owner : String) (file : Option String) (block : Block) :
    List RepresentationSource → List RepresentationSource
  | [] =>
    let fresh := RepresentationSource.ofClass owner "" []
    [{ fresh with file, line := block.firstLine }.add block]
  | s :: ss => if s.owner == owner then s.add block :: ss else s :: addBlock owner file block ss

def representationsIn (content : String) (file : Option String) : List RepresentationSource :=
  let scan := scan content
  scan.blocks.foldl
    (fun sources block =>
      match block.owner with
      | some owner =>
        if hasMarker block.text then addBlock (scan.qualify owner) file block sources else sources
      | none => sources)
    []

end VersionedApi
