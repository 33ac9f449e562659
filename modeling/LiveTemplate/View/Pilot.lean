import LiveTemplate.Document.Html
import LiveTemplate.Document.Query
import LiveTemplate.View.Mount

/-!
# Pilots

A pilot has a document and a registry of its own.  What is mounted through it stays until it is torn
down, and is searched in the order of mounting.
-/

namespace LiveTemplate

/-- A document and a registry with the renders mounted there. -/
structure Pilot where
  document : DocumentId
  registry : RegistryId
  config : RenderConfig := {}
  mounted : List RenderId := []

namespace World

variable {Client : Type}

/-- A pilot with an empty document and an empty registry. -/
def newPilot (world : World Client) (config : RenderConfig) : Pilot × World Client :=
  ({ document := ⟨world.documents.next⟩, registry := ⟨world.registries.next⟩, config },
    { world with
      documents := world.documents.add {}
      registries := world.registries.add {} })

/-- Take down everything mounted through a pilot. -/
def unmountAll (world : World Client) (pilot : Pilot) : World Client :=
  pilot.mounted.foldl unmount world

end World

namespace Pilot

variable {Client : Type}

/-- The root elements of what is mounted. -/
def roots (pilot : Pilot) (world : World Client) : List NodeId :=
  pilot.mounted.filterMap fun id => (world.render? id).map (·.node)

/-- Every element with a tag. -/
def findAll (pilot : Pilot) (world : World Client) (tag : String) : List NodeId :=
  (pilot.roots world).flatMap fun root => (world.document pilot.document).queryAllByTag root tag

/-- The first element with a tag. -/
def find? (pilot : Pilot) (world : World Client) (tag : String) : Option NodeId :=
  (pilot.findAll world tag).head?

/-- The first node that has an attribute with a value. -/
def findByAttribute? (pilot : Pilot) (world : World Client) (name value : String) :
    Option NodeId :=
  (pilot.roots world).findSome? fun root =>
    (world.document pilot.document).queryByAttribute root name value

/-- The number of registrations held by everything mounted. -/
def subscriptionCount (pilot : Pilot) (world : World Client) : Nat :=
  pilot.mounted.foldl (fun total id => total + world.subscriptionCount id) 0

end Pilot

end LiveTemplate
