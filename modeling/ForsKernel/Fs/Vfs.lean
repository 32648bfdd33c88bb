import Mathlib.Data.Nat.Bitwise
import ForsKernel.Lib.Chain
import ForsKernel.Fs.Path

/-!
# The virtual file system

The tables of nodes, links and open files, and the operations of
`generic/fs/vfs.c` and `generic/fs/fsops.c` on them.  Pointers into a table
are indices, and a pointer which may be `NULL` is an option.

A file system is a table of callbacks.  They are arbitrary: each returns any
value, changes the state `ω` of its file system, and may write to the node or
the cursor of the open file it is handed.  The calls made are recorded in
order.  `none` stands for an operation in which the kernel faults.
-/

namespace ForsKernel.Fs

open ForsKernel.Lib.Chain

/-! ## Tables -/

/-- `FILENAME_SIZE`. -/
def filenameSize : Nat := 32

/-- `NUM_FSNODES`. -/
def numFsnodes : Nat := 256

/-- `NUM_OPEN_FILES`. -/
def numOpenFiles : Nat := 512

/-- The loop over the links of a directory makes fewer turns than this. -/
def linkFuel : Nat := 2 ^ 64

inductive FsnType where
  | empty
  | file
  | directory
  | mountpoint
deriving DecidableEq

/-- `fsnode_t`, less the group and the times which the VFS does not read. -/
structure FsNode where
  mountpoint : Option Nat
  internalId : Int
  type : FsnType
  perms : Nat
  user : Int
  refCount : Nat
  child : Option Nat

structure FsLink where
  name : CString
  node : Option Nat
  prev : Option Nat
  next : Option Nat

structure OpenFile where
  node : Option Nat
  cursor : Int
  mode : Nat
  proc : Int

/-- A call of a file system, and what it returned. -/
inductive FsCall where
  | retrieveChild (parent : Nat) (name : CString) (len : Nat) (id : Int)
  | nodeFromId (id : Int) (node : Nat) (ret : Int)
  | fOpen (node : Nat) (ret : Int)
  | fClose (fd node : Nat) (ret : Int)
  | fSeek (fd node : Nat) (ret : Int)
  | fRead (fd node : Nat) (ret : Int)
  | fWrite (fd node : Nat) (ret : Int)
deriving DecidableEq

/-- The tables, the state of the file systems, and the calls so far. -/
structure Vfs (ω : Type*) where
  vfsRoot : Nat
  fsnodes : Nat → FsNode
  fslinks : Nat → FsLink
  openFiles : Nat → OpenFile
  fsState : ω
  calls : List FsCall

/-- What a callback which is handed a node leaves behind. -/
structure NodeReply (ω : Type*) where
  ret : Int
  node : FsNode
  fsState : ω

/-- What a callback which is handed an open file leaves behind. -/
structure FileReply (ω : Type*) where
  ret : Int
  cursor : Int
  node : FsNode
  fsState : ω

/-- The callbacks of `filesystem_type_t` which the VFS makes use of here. -/
structure FsOps (ω : Type*) where
  retrieveChild : FsNode → CString → Nat → ω → NodeReply ω
  nodeFromId : Int → FsNode → ω → NodeReply ω
  fOpen : FsNode → ω → NodeReply ω
  fClose : OpenFile → FsNode → ω → FileReply ω
  fSeek : OpenFile → FsNode → Int → Int → ω → FileReply ω
  fRead : OpenFile → FsNode → Int → ω → FileReply ω × CString
  fWrite : OpenFile → FsNode → Int → CString → ω → FileReply ω

variable {ω : Type*}

namespace Vfs

def setNode
    (vfs : Vfs ω)
    (node : Nat)
    (contents : FsNode) :
    Vfs ω :=
  { vfs with fsnodes := Function.update vfs.fsnodes node contents }

def setFile
    (vfs : Vfs ω)
    (fd : Nat)
    (contents : OpenFile) :
    Vfs ω :=
  { vfs with openFiles := Function.update vfs.openFiles fd contents }

/-- A callback returns, having been handed this node. -/
def nodeReplied
    (vfs : Vfs ω)
    (node : Nat)
    (reply : NodeReply ω)
    (call : FsCall) :
    Vfs ω :=
  { vfs.setNode node reply.node with
    fsState := reply.fsState
    calls := vfs.calls ++ [call] }

/-- A callback returns, having been handed this open file. -/
def fileReplied
    (vfs : Vfs ω)
    (fd node : Nat)
    (reply : FileReply ω)
    (call : FsCall) :
    Vfs ω :=
  { (vfs.setNode node reply.node).setFile fd
      { vfs.openFiles fd with cursor := reply.cursor } with
    fsState := reply.fsState
    calls := vfs.calls ++ [call] }

end Vfs

/-! ## Permissions -/

/-- The bits which grant something to everybody and to the owner. -/
structure PermBits where
  other : Nat
  user : Nat

/-- `FP_ROTH` and `FP_RUSR`. -/
def readBits : PermBits := ⟨1 <<< 6, 1 <<< 0⟩

/-- `FP_WOTH` and `FP_WUSR`. -/
def writeBits : PermBits := ⟨1 <<< 7, 1 <<< 1⟩

/-- `FP_XOTH` and `FP_XUSR`. -/
def execBits : PermBits := ⟨1 <<< 8, 1 <<< 2⟩

/-- Process `-1`, the kernel, may do anything. -/
def grants
    (bits : PermBits)
    (dir : FsNode)
    (p : Int) :
    Bool :=
  p == -1 || dir.perms &&& bits.other != 0 ||
    (dir.perms &&& bits.user != 0 && dir.user == p)

def canRead
    (dir : FsNode)
    (p : Int) :
    Bool :=
  grants readBits dir p

def canWrite
    (dir : FsNode)
    (p : Int) :
    Bool :=
  grants writeBits dir p

def canExec
    (dir : FsNode)
    (p : Int) :
    Bool :=
  grants execBits dir p

def ofWrite : Nat := 1 <<< 0

def ofRead : Nat := 1 <<< 1

def ofAppend : Nat := 1 <<< 2

/-- The mode contains the flag. -/
def HasMode (mode flag : Nat) : Prop :=
  mode &&& flag ≠ 0

instance (mode flag : Nat) : Decidable (HasMode mode flag) :=
  inferInstanceAs (Decidable (_ ≠ _))

/-! ## Nodes -/

/-- The first index below `bound` which satisfies a test. -/
def firstIndex
    (bound : Nat)
    (test : Nat → Bool) :
    Option Nat :=
  (List.range bound).find? test

/-- The index of a free node; the source returns `-1` if there is none. -/
def findFreeNode (vfs : Vfs ω) : Option Nat :=
  firstIndex numFsnodes fun i => (vfs.fsnodes i).type == .empty

/-- The index of a free open file; the source returns `-1` if there is none. -/
def findFreeFd (vfs : Vfs ω) : Option Nat :=
  firstIndex numOpenFiles fun i => (vfs.openFiles i).node == none

/-- The loop of `get_node_with_len` over the cached links. -/
def findLink
    (vfs : Vfs ω)
    (parent : Nat)
    (name : CString)
    (len : Nat) :
    Option (Option Nat) :=
  search none (fun link => link.bind fun i => (vfs.fslinks i).next)
    (fun link => link.any fun i =>
      strncmp (vfs.fslinks i).name name len == 0)
    linkFuel (vfs.fsnodes parent).child

/-- The result is a node or `NULL`. -/
abbrev NodeResult (ω : Type*) := Option Nat × Vfs ω

def getNodeWithLen
    (mounts : Nat → FsOps ω)
    (parent : Nat)
    (name : CString)
    (len : Nat)
    (vfs : Vfs ω) :
    Option (NodeResult ω) :=
  (findLink vfs parent name len).bind fun
    | some link => some ((vfs.fslinks link).node, vfs)
    | none =>
        match findFreeNode vfs with
        | none => some (none, vfs)
        | some newNode =>
            let mountpoint := (vfs.fsnodes parent).mountpoint
            let vfs := vfs.setNode newNode
              { vfs.fsnodes newNode with mountpoint := mountpoint }
            -- the parent is read again, for it may be the free node and
            -- the callbacks may write to it
            (vfs.fsnodes parent).mountpoint.bind fun mount =>
              let child := (mounts mount).retrieveChild (vfs.fsnodes parent)
                name len vfs.fsState
              let vfs := vfs.nodeReplied parent child
                (.retrieveChild parent name len child.ret)
              (vfs.fsnodes parent).mountpoint.bind fun mount =>
                let filled := (mounts mount).nodeFromId child.ret
                  (vfs.fsnodes newNode) vfs.fsState
                let vfs := vfs.nodeReplied newNode filled
                  (.nodeFromId child.ret newNode filled.ret)
                some (if filled.ret < 0 then none else some newNode, vfs)

def getNode
    (mounts : Nat → FsOps ω)
    (parent : Nat)
    (name : CString)
    (vfs : Vfs ω) :
    Option (NodeResult ω) :=
  getNodeWithLen mounts parent name (strnlen name filenameSize) vfs

/-! ## The path walk -/

/--
The loop of `find_parent_checkperm`.  The string starts behind the initial
slash, `path` is the offset reached in it and `finish` the offset of the
trailing slashes.
-/
def walkPath
    (mounts : Nat → FsOps ω)
    (p : Int)
    (str : CString)
    (finish : Nat)
    (lastDelim : Option Nat) :
    Nat → Nat → Nat → Vfs ω → Option (NodeResult ω)
  | 0, _, _, _ => none
  | fuel + 1, path, parent, vfs =>
      match strnchr (str.drop path) slash (finish - path) with
      | none => some (some parent, vfs)
      | some len =>
          let entered :=
            if 0 < len then getNodeWithLen mounts parent (str.drop path) len vfs
            else some (some parent, vfs)
          entered.bind fun
            | (none, vfs) => some (none, vfs)
            | (some parent, vfs) =>
                if (vfs.fsnodes parent).type ≠ .directory then
                  some (none, vfs)
                else if some (path + len) = lastDelim then
                  some (some parent, vfs)
                else if !canExec (vfs.fsnodes parent) p then
                  some (none, vfs)
                else
                  walkPath mounts p str finish lastDelim fuel
                    (path + len + 1) parent vfs

def findParentCheckperm
    (mounts : Nat → FsOps ω)
    (root : Nat)
    (path : CString)
    (p : Int)
    (vfs : Vfs ω) :
    Option (NodeResult ω) :=
  match path with
  | [] => some (none, vfs)
  | first :: str =>
      if first ≠ slash then some (none, vfs)
      else
        let finish := firstOfTrailing str
        let lastDelim := memrchr slash str finish
        if !canExec (vfs.fsnodes root) p then some (none, vfs)
        else walkPath mounts p str finish lastDelim (str.length + 1) 0 root vfs

/-! ## Operations on open files -/

/-- The new open file, and one more reference to its node. -/
def Vfs.fillFile
    (vfs : Vfs ω)
    (fd node mode : Nat)
    (p : Int) :
    Vfs ω :=
  (vfs.setFile fd
    { node := some node
      cursor := 0
      mode := if HasMode mode ofAppend then mode ||| ofWrite else mode
      proc := p }).setNode node
    { vfs.fsnodes node with
      refCount := ((vfs.fsnodes node).refCount + 1) % 2 ^ 32 }

/-- The part of `vfs_open` from the permission checks of the node on. -/
def openNode
    (mounts : Nat → FsOps ω)
    (p : Int)
    (mode node : Nat)
    (vfs : Vfs ω) :
    Option (Int × Vfs ω) :=
  let target := vfs.fsnodes node
  if (HasMode mode ofAppend ∨ HasMode mode ofWrite) ∧
      canWrite target p = false then
    some (-1, vfs)
  else if HasMode mode ofRead ∧ canRead target p = false then
    some (-1, vfs)
  else
    target.mountpoint.bind fun mount =>
      let opened := (mounts mount).fOpen target vfs.fsState
      let vfs := vfs.nodeReplied node opened (.fOpen node opened.ret)
      if opened.ret < 0 then some (-1, vfs)
      else
        match findFreeFd vfs with
        | none => some (-1, vfs)
        | some newFd => some (newFd, vfs.fillFile newFd node mode p)

/-- A path without a name or a node which is not found makes it fault. -/
def vfsOpen
    (mounts : Nat → FsOps ω)
    (p : Int)
    (fullPath : CString)
    (mode : Nat)
    (vfs : Vfs ω) :
    Option (Int × Vfs ω) :=
  (findParentCheckperm mounts vfs.vfsRoot fullPath p vfs).bind fun
    | (none, vfs) => some (-1, vfs)
    | (some parent, vfs) =>
        if !canExec (vfs.fsnodes parent) p then some (-1, vfs)
        else
          (basename fullPath).bind fun name =>
            (getNode mounts parent name vfs).bind fun
              | (none, _) => none
              | (some node, vfs) => openNode mounts p mode node vfs

/--
The common beginning of the operations on a descriptor: the file must be open,
and its node mounted.
-/
def withFile
    {α : Type*}
    (mounts : Nat → FsOps ω)
    (fd : Nat)
    (vfs : Vfs ω)
    (closed : α)
    (act : FsOps ω → Nat → Option α) :
    Option α :=
  if numOpenFiles ≤ fd then none
  else
    match (vfs.openFiles fd).node with
    | none => some closed
    | some node =>
        (vfs.fsnodes node).mountpoint.bind fun mount =>
          act (mounts mount) node

def vfsClose
    (mounts : Nat → FsOps ω)
    (fd : Nat)
    (vfs : Vfs ω) :
    Option (Int × Vfs ω) :=
  withFile mounts fd vfs (-1, vfs) fun fs node =>
    let reply :=
      fs.fClose (vfs.openFiles fd) (vfs.fsnodes node) vfs.fsState
    let vfs := vfs.fileReplied fd node reply (.fClose fd node reply.ret)
    if reply.ret < 0 then some (-1, vfs)
    else
      let vfs := vfs.setNode node
        { vfs.fsnodes node with
          refCount := ((vfs.fsnodes node).refCount + (2 ^ 32 - 1)) % 2 ^ 32 }
      some (0, vfs.setFile fd { vfs.openFiles fd with node := none })

/-- `ANCH_REL`. -/
def anchRel : Int := 0

/-- `ANCH_START`. -/
def anchStart : Int := 1

/-- `ANCH_END`. -/
def anchEnd : Int := 2

/--
The switch of `vfs_seek`: its value and the cursor.  The sum is one of 64 bits
with sign.
-/
def seekCursor (cursor offset anchor : Int) : Int × Int :=
  if anchor = anchRel then
    (0, ((if cursor < 0 then 0 else cursor) + offset).bmod (2 ^ 64))
  else if anchor = anchStart then
    if offset < 0 then (-1, cursor) else (0, offset)
  else if anchor = anchEnd then
    (-1, cursor)
  else
    (0, cursor)

def vfsSeek
    (mounts : Nat → FsOps ω)
    (fd : Nat)
    (offset anchor : Int)
    (vfs : Vfs ω) :
    Option (Int × Vfs ω) :=
  withFile mounts fd vfs (-1, vfs) fun fs node =>
    let reply := fs.fSeek (vfs.openFiles fd) (vfs.fsnodes node) offset anchor
      vfs.fsState
    let vfs := vfs.fileReplied fd node reply (.fSeek fd node reply.ret)
    if reply.ret < 0 then some (-1, vfs)
    else
      let sought := seekCursor (vfs.openFiles fd).cursor offset anchor
      some (sought.1,
        vfs.setFile fd { vfs.openFiles fd with cursor := sought.2 })

/-- The bytes are what the file system put into the buffer. -/
def vfsRead
    (mounts : Nat → FsOps ω)
    (fd : Nat)
    (nbytes : Int)
    (vfs : Vfs ω) :
    Option (Int × CString × Vfs ω) :=
  if numOpenFiles ≤ fd then none
  else
    let file := vfs.openFiles fd
    match file.node with
    | none => some (-1, [], vfs)
    | some node =>
        if (vfs.fsnodes node).type ≠ .file then some (-1, [], vfs)
        else if ¬ HasMode file.mode ofRead then some (-1, [], vfs)
        else
          (vfs.fsnodes node).mountpoint.bind fun mount =>
            let reply := (mounts mount).fRead file (vfs.fsnodes node) nbytes
              vfs.fsState
            some (reply.1.ret, reply.2,
              vfs.fileReplied fd node reply.1 (.fRead fd node reply.1.ret))

def vfsWrite
    (mounts : Nat → FsOps ω)
    (fd : Nat)
    (nbytes : Int)
    (kbuffer : CString)
    (vfs : Vfs ω) :
    Option (Int × Vfs ω) :=
  if numOpenFiles ≤ fd then none
  else
    let file := vfs.openFiles fd
    match file.node with
    | none => some (-1, vfs)
    | some node =>
        if (vfs.fsnodes node).type ≠ .file then some (-1, vfs)
        else if ¬ HasMode file.mode ofWrite then some (-1, vfs)
        else
          (vfs.fsnodes node).mountpoint.bind fun mount =>
            let reply := (mounts mount).fWrite file (vfs.fsnodes node) nbytes
              kbuffer vfs.fsState
            some (reply.ret,
              vfs.fileReplied fd node reply (.fWrite fd node reply.ret))

end ForsKernel.Fs
