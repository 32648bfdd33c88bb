import ForsKernel.Fs.Vfs

/-!
# Links and nodes

The operations of `generic/fs/vfs.c` on the links of a directory, and the
lookups which do not start from a directory and a name.
-/

namespace ForsKernel.Fs

variable {ω : Type*}

/-- `NUM_FSLINKS`. -/
def numFslinks : Nat := 256

namespace Vfs

def setLink
    (vfs : Vfs ω)
    (link : Nat)
    (contents : FsLink) :
    Vfs ω :=
  { vfs with fslinks := Function.update vfs.fslinks link contents }

/-- `fslinks[link].node = node`. -/
def setLinkNode
    (vfs : Vfs ω)
    (link : Nat)
    (node : Option Nat) :
    Vfs ω :=
  vfs.setLink link { vfs.fslinks link with node := node }

/-- `fslinks[link].prev = prev`. -/
def setLinkPrev
    (vfs : Vfs ω)
    (link : Nat)
    (prev : Option Nat) :
    Vfs ω :=
  vfs.setLink link { vfs.fslinks link with prev := prev }

/-- `fslinks[link].next = next`. -/
def setLinkNext
    (vfs : Vfs ω)
    (link : Nat)
    (next : Option Nat) :
    Vfs ω :=
  vfs.setLink link { vfs.fslinks link with next := next }

/-- `fsnodes[node].child = child`. -/
def setChild
    (vfs : Vfs ω)
    (node : Nat)
    (child : Option Nat) :
    Vfs ω :=
  vfs.setNode node { vfs.fsnodes node with child := child }

end Vfs

/-- A link without a node is free; the source returns `-1` if there is none. -/
def findFreeLink (vfs : Vfs ω) : Option Nat :=
  firstIndex numFslinks fun i => (vfs.fslinks i).node == none

def addChild
    (parent new : Nat)
    (name : CString)
    (vfs : Vfs ω) :
    Int × Vfs ω :=
  match findFreeLink vfs with
  | none => (-1, vfs)
  | some link =>
      if filenameSize ≤ name.length then (-1, vfs)
      else
        let vfs := vfs.setLink link ⟨name, some new, none, none⟩
        match (vfs.fsnodes parent).child with
        | none => (0, vfs.setChild parent (some link))
        | some first =>
            let vfs := vfs.setLinkPrev first (some link)
            let vfs := vfs.setLinkNext link (vfs.fsnodes parent).child
            (0, vfs.setChild parent (some link))

/-- One reference less, modulo the width of the counter. -/
def Vfs.release
    (vfs : Vfs ω)
    (node : Nat) :
    Vfs ω :=
  vfs.setNode node
    { vfs.fsnodes node with
      refCount := ((vfs.fsnodes node).refCount + (2 ^ 32 - 1)) % 2 ^ 32 }

/-- `if (link->prev) link->prev->next = link->next;` -/
def Vfs.skipForward
    (vfs : Vfs ω)
    (link : Nat) :
    Vfs ω :=
  match (vfs.fslinks link).prev with
  | none => vfs
  | some prev => vfs.setLinkNext prev (vfs.fslinks link).next

/-- `if (link->next) link->next->prev = link->prev;` -/
def Vfs.skipBackward
    (vfs : Vfs ω)
    (link : Nat) :
    Vfs ω :=
  match (vfs.fslinks link).next with
  | none => vfs
  | some next => vfs.setLinkPrev next (vfs.fslinks link).prev

/-- A neighbour of the link becomes the head of the list. -/
def Vfs.rehead
    (vfs : Vfs ω)
    (parent link : Nat) :
    Vfs ω :=
  if (vfs.fslinks link).prev ≠ none then
    vfs.setChild parent (vfs.fslinks link).prev
  else if (vfs.fslinks link).next ≠ none then
    vfs.setChild parent (vfs.fslinks link).next
  else
    vfs.setChild parent none

/--
A link without a node makes it fault.  Whatever head was chosen, the list has
none in the end.
-/
def delChild
    (parent toDel : Nat)
    (vfs : Vfs ω) :
    Option (Int × Vfs ω) :=
  (vfs.fslinks toDel).node.map fun node =>
    let vfs := (vfs.release node).setLinkNode toDel none
    let vfs := vfs.skipForward toDel
    let vfs := vfs.skipBackward toDel
    let vfs := vfs.rehead parent toDel
    (0, vfs.setChild parent none)

/-- The search of `get_node_byid` among the nodes in memory. -/
def findNodeById
    (vfs : Vfs ω)
    (mount : Nat)
    (internalId : Int) :
    Option Nat :=
  firstIndex numFsnodes fun i =>
    (vfs.fsnodes i).type != .empty &&
      ((vfs.fsnodes i).internalId == internalId &&
        (vfs.fsnodes i).mountpoint == some mount)

def getNodeByid
    (mounts : Nat → FsOps ω)
    (mount : Nat)
    (internalId : Int)
    (vfs : Vfs ω) :
    NodeResult ω :=
  match findNodeById vfs mount internalId with
  | some node => (some node, vfs)
  | none =>
      match findFreeNode vfs with
      | none => (none, vfs)
      | some newNode =>
          let vfs := vfs.setNode newNode
            { vfs.fsnodes newNode with mountpoint := some mount }
          let filled := (mounts mount).nodeFromId internalId
            (vfs.fsnodes newNode) vfs.fsState
          let vfs := vfs.nodeReplied newNode filled
            (.nodeFromId internalId newNode filled.ret)
          (if filled.ret < 0 then none else some newNode, vfs)

def findParent
    (mounts : Nat → FsOps ω)
    (root : Nat)
    (path : CString)
    (vfs : Vfs ω) :
    Option (NodeResult ω) :=
  findParentCheckperm mounts root path (-1) vfs

/-- A path without a name makes it fault. -/
def findNode
    (mounts : Nat → FsOps ω)
    (root : Nat)
    (path : CString)
    (vfs : Vfs ω) :
    Option (NodeResult ω) :=
  (findParent mounts root path vfs).bind fun
    | (none, vfs) => some (none, vfs)
    | (some parent, vfs) =>
        (basename path).bind fun name => getNode mounts parent name vfs

end ForsKernel.Fs
