import CubeSandbox.GoText
import CubeSandbox.Tbl

/-!
The cache of nodes in CubeMaster (`pkg/localcache/node_cache.go`, `db_cache.go`,
`pkg/base/node/node.go`).

The cache has an object for each node id. Beside it stands a list of objects for each instance
type, sorted by index, from which the scheduler and the listing of sandboxes take their nodes.
The lists hold the objects themselves, and an update changes the cached object in place.
-/

namespace CubeSandbox.NodeCache

open GoText

structure Node where
  index : Int
  insID : Bytes
  ip : Bytes
  ossClusterLabel : Bytes
  reportedReady : Bool
  healthy : Bool
  metaDataUpdateAt : Int
  deriving DecidableEq, Inhabited

def Node.id (n : Node) : Bytes := if n.insID = [] then n.ip else n.insID

/-- What `updateNodeFromMetaData` copies into the cached object. -/
def Node.update (old n : Node) : Node :=
  { old with
    ip := n.ip
    reportedReady := n.reportedReady
    healthy := n.healthy
    metaDataUpdateAt := n.metaDataUpdateAt
    ossClusterLabel := n.ossClusterLabel }

section Slices

variable {α : Type}

/-- The array after `append(s[:i], s[i+1:]...)` for the slice `s` of its first `len` elements. -/
def shift (arr : List α) (len i : Nat) : List α :=
  arr.take i ++ (arr.take len).drop (i + 1) ++ arr.drop (len - 1)

/-- The loop of `NodeList.Remove`, over the length that the slice had in the beginning. Slicing
beyond its end is a panic, which leaves the array changed. -/
def removeFrom (p : α → Bool) : Nat → Nat → List α → Nat → Except (List α) (List α)
  | 0, _, arr, len => .ok (arr.take len)
  | k + 1, i, arr, len =>
    if (arr[i]?).any p then
      if i + 1 ≤ len then removeFrom p k (i + 1) (shift arr len i) (len - 1) else .error arr
    else removeFrom p k (i + 1) arr len

/-- `NodeList.Remove` of the elements with a given id. -/
def remove (p : α → Bool) (l : List α) : Except (List α) (List α) :=
  removeFrom p l.length 0 l l.length

end Slices

/-- The instance types of the scheduler's configuration, and the type of a label. -/
structure Conf where
  types : List Bytes
  labelRef : Tbl Bytes Bytes

def defaultInstanceTypeName : Bytes := ascii "default"

/-- `GetInstanceTypeOfClusterLabel`. -/
def Conf.typeOfLabel (conf : Conf) (label : Bytes) : Bytes := (conf.labelRef.get label).getD []

/-- The objects, the cache (an object for each id) and the sorted lists. -/
structure World where
  objs : List Node
  cache : Tbl Bytes Nat
  lists : Tbl Bytes (List Nat)

namespace World

def obj (w : World) (p : Nat) : Node := w.objs.getD p default

def ids (w : World) (l : List Nat) : List Bytes := l.map fun p => (w.obj p).id

/-- `getInstanceTypeName`. -/
def typeName (conf : Conf) (w : World) (n : Node) : Bytes :=
  let product := conf.typeOfLabel n.ossClusterLabel
  let product := if product = [] then defaultInstanceTypeName else product
  if (w.lists.get product).isNone then defaultInstanceTypeName else product

/-- A list that does not exist is empty. -/
def list (w : World) (product : Bytes) : List Nat := (w.lists.get product).getD []

def sortByIndex (w : World) (l : List Nat) : List Nat :=
  l.insertionSort fun p q => (w.obj p).index ≤ (w.obj q).index

def setList (w : World) (product : Bytes) (l : List Nat) : World :=
  { w with lists := w.lists.put product l }

end World

/-- A handler ends, or panics in the middle. -/
abbrev Result := Except World World

/-- What is left after a handler: a panic is caught. -/
def Result.world : Result → World
  | .ok w => w
  | .error w => w

section Handlers

variable (conf : Conf)

/-- `Remove` in a sorted list: after a panic the list keeps its length. -/
def removeIn (w : World) (product id : Bytes) : Result :=
  match remove (fun p => (w.obj p).id == id) (w.list product) with
  | .ok l => .ok (w.setList product l)
  | .error arr => .error (w.setList product arr)

def appendSortedNodes (w : World) (p : Nat) : World :=
  if (w.obj p).healthy then
    let product := w.typeName conf (w.obj p)
    w.setList product (w.sortByIndex (w.list product ++ [p]))
  else w

def delSortedNodes (w : World) (n : Node) : Result := removeIn w (w.typeName conf n) n.id

/-- `NodeList.Add`. -/
def addTo (w : World) (l : List Nat) (p : Nat) : List Nat :=
  if (w.obj p).id ∈ w.ids l then l else l ++ [p]

def updateSortedNodes (w : World) (p : Nat) : Result :=
  let product := w.typeName conf (w.obj p)
  if (w.obj p).healthy then .ok (w.setList product (w.sortByIndex (addTo w (w.list product) p)))
  else removeIn w product (w.obj p).id

def addNodeCache (w : World) (n : Node) : World :=
  let p := w.objs.length
  appendSortedNodes conf { w with objs := w.objs ++ [n], cache := w.cache.put n.id p } p

def delNodeCache (w : World) (n : Node) : Result :=
  delSortedNodes conf { w with cache := w.cache.del n.id } n

def downNodeCache (now : Int) (w : World) (n : Node) : Result :=
  match w.cache.get n.id with
  | none => .ok w
  | some p =>
    let old := { w.obj p with reportedReady := false, healthy := false, metaDataUpdateAt := now }
    delSortedNodes conf { w with objs := w.objs.set p old } n

/-- `updateNodeFromMetaData`, and `addNodeCache` for a node that is not cached. -/
def upsertNode (w : World) (n : Node) : Result :=
  match w.cache.get n.id with
  | none => .ok (addNodeCache conf w n)
  | some p => updateSortedNodes conf { w with objs := w.objs.set p ((w.obj p).update n) } p

/-- One cached node in `checkDirty`: the map is keyed by instance ids. -/
def checkOne (fromDb : List Bytes) (w : World) (p : Nat) : Result :=
  if (w.obj p).insID ∈ fromDb then .ok w else delNodeCache conf w (w.obj p)

/-- `checkDirty`, over the cached nodes in some order. -/
def checkDirty (w : World) (fromDb : List Bytes) (order : List Nat) : Result :=
  if fromDb = [] then .ok w else order.foldlM (checkOne conf fromDb) w

/-- The load at the start, the events by which nodes are deleted, added or updated and taken down
(with the nodes read from the database), and the sync with all nodes of the database. -/
inductive Event
  | load (nodes : List Node)
  | del (insIDs : List Bytes)
  | upsert (nodes : List Node)
  | down (nodes : List Node) (now : Int)
  | sync (nodes : List Node) (order : List Nat)

/-- A node of which only the instance id is known. -/
def bareNode (insID : Bytes) : Node := ⟨0, insID, [], [], false, false, 0⟩

def handle (w : World) : Event → Result
  | .load nodes => .ok (nodes.foldl (addNodeCache conf) w)
  | .del insIDs => insIDs.foldlM (fun w id => delNodeCache conf w (bareNode id)) w
  | .upsert nodes => nodes.foldlM (upsertNode conf) w
  | .down nodes now => nodes.foldlM (downNodeCache conf now) w
  | .sync nodes order => do
    let w ← nodes.foldlM (upsertNode conf) w
    checkDirty conf w (nodes.map Node.insID) order

/-- The pointers of the cache, in some order. -/
def World.cached (w : World) : List Nat := w.cache.toPairs.map Prod.snd

/-- The order in which a sync goes over the cache is one of the cached nodes. -/
def possible (w : World) : Event → Bool
  | .sync nodes order =>
    decide (order.Perm (Result.world (nodes.foldlM (upsertNode conf) w)).cached)
  | _ => true

def step (w : World) (e : Event) : Option World :=
  if possible conf w e then some (handle conf w e).world else none

end Handlers

/-- `Init`: a list for the default type and one for each configured type. -/
def World.init (conf : Conf) : World :=
  ⟨[], ∅, conf.types.foldl (fun t k => t.put k []) ((∅ : Tbl Bytes (List Nat)).put
    defaultInstanceTypeName [])⟩

end CubeSandbox.NodeCache
