import ForsKernel.Fs.Links

/-!
# The test file system

`generic/fs/test.c`: a fixed tree of nodes with their identifiers, all of
which hold the same text.  It is what the kernel mounts as its root.
-/

namespace ForsKernel.Fs

namespace TestFs

/-! ## Identifiers and names -/

def idRootDir : Int := 0

def idTestdir1 : Int := 4

def idTestdir2 : Int := 5

/-- `__ROOT_SENTINAL`. -/
def rootSentinal : Nat := 6

/-- `__DIR1_SENTINAL`. -/
def dir1Sentinal : Nat := 8

/-- `__DIR2_SENTINAL`, which is also `__FINAL_SENTINAL`. -/
def dir2Sentinal : Nat := 10

/-- The bytes of a text. -/
def text (letters : String) : CString :=
  letters.toList.map fun letter => letter.toNat.toUInt8

def nodeNames : List CString :=
  [text ".", text "test.txt", text "test2.txt", text "test3.txt",
    text "testdir1", text "testdir2", text "child1", text "child2",
    text "child_a", text "child_b"]

/-- The first identifier in a range whose name is the one looked for. -/
def findName
    (name : CString)
    (nameLen first limit : Nat) :
    Int :=
  match (List.range' first (limit - first)).find? fun i =>
      strncmp name (nodeNames.getD i []) nameLen == 0 with
  | some i => i
  | none => -1

def retrieveChild
    (parentId : Int)
    (name : CString)
    (nameLen : Nat) :
    Int :=
  if parentId = idRootDir then findName name nameLen 0 rootSentinal
  else if parentId = idTestdir1 then
    findName name nameLen rootSentinal dir1Sentinal
  else if parentId = idTestdir2 then
    findName name nameLen dir1Sentinal dir2Sentinal
  else -1

/-- The identifiers of directories. -/
def IsDir (id : Int) : Prop :=
  id = idRootDir ∨ id = idTestdir1 ∨ id = idTestdir2

instance (id : Int) : Decidable (IsDir id) :=
  inferInstanceAs (Decidable (_ ∨ _))

/-- `FP_ROTH | FP_RUSR | FP_RGRP | FP_WUSR`. -/
def filePerms : Nat := 1 <<< 6 ||| 1 <<< 0 ||| 1 <<< 3 ||| 1 <<< 1

/-- `FP_XOTH | FP_XUSR | FP_XGRP`. -/
def dirPerms : Nat := 1 <<< 8 ||| 1 <<< 2 ||| 1 <<< 5

/-- There is a node with this identifier. -/
def Exists (id : Int) : Prop :=
  0 ≤ id ∧ id < dir2Sentinal

instance (id : Int) : Decidable (Exists id) :=
  inferInstanceAs (Decidable (_ ∧ _))

/-- The node with this identifier, in the place of an old one. -/
def fill
    (id : Int)
    (node : FsNode) :
    FsNode :=
  { node with
    internalId := id
    perms := if IsDir id then filePerms ||| dirPerms else filePerms
    type := if IsDir id then .directory else .file
    refCount := 0
    child := none }

theorem fill_type
    (id : Int)
    (node : FsNode) :
    (fill id node).type ≠ .empty := by
  simp only [fill]
  split <;> decide

def nodeFromId
    (id : Int)
    (node : FsNode) :
    Int × FsNode :=
  if Exists id then (0, fill id node) else (-1, node)

/-- The contents of every file, with its terminator. -/
def msg : CString :=
  text ("Hello, world! This is my test string, which is inside all of the " ++
    "files in a testfs filesystem! Wow!!!") ++ [0]

/--
The offset in the text from which `tfs_read` copies, if it does.  Nothing but
the end of the text is checked.
-/
def readStart (cursor : Int) : Option Int :=
  if msg.length ≤ cursor then none else some cursor

/--
The bytes copied into the buffer end with a terminator.  A start before the
text is taken for its start; the source would read outside of the text.
-/
def read (cursor nbytes : Int) : Int × CString :=
  let count : Nat := (nbytes % 2 ^ 64).toNat
  match readStart cursor with
  | none => (-1, [])
  | some start =>
      (((min count msg.length : Nat) : Int),
        ((msg.drop start.toNat).takeWhile (· ≠ 0)).take count ++ [0])

/-- `testfs_type`, as far as the VFS makes use of it. -/
def testfsType : FsOps Unit where
  retrieveChild := fun parent name nameLen _ =>
    ⟨retrieveChild parent.internalId name nameLen, parent, ()⟩
  nodeFromId := fun id node _ =>
    ⟨(nodeFromId id node).1, (nodeFromId id node).2, ()⟩
  fOpen := fun node _ => ⟨0, node, ()⟩
  fClose := fun file node _ => ⟨0, file.cursor, node, ()⟩
  fSeek := fun file node _ _ _ => ⟨0, file.cursor, node, ()⟩
  fRead := fun file node nbytes _ =>
    (⟨(read file.cursor nbytes).1, file.cursor, node, ()⟩,
      (read file.cursor nbytes).2)
  fWrite := fun file node _ _ _ => ⟨-1, file.cursor, node, ()⟩

end TestFs

/-- Only test file systems are mounted. -/
def testMounts : Nat → FsOps Unit :=
  fun _ => TestFs.testfsType

/-- The tables before anything is loaded. -/
def zeroVfs : Vfs Unit where
  vfsRoot := 0
  fsnodes := fun _ => ⟨none, 0, .empty, 0, 0, 0, none⟩
  fslinks := fun _ => ⟨[], none, none, none⟩
  openFiles := fun _ => ⟨none, 0, 0, 0⟩
  fsState := ()
  calls := []

/-- The kernel has looked up the root of its first mount. -/
def bootVfs : Vfs Unit :=
  let looked := getNodeByid testMounts 0 TestFs.idRootDir zeroVfs
  { looked.2 with vfsRoot := looked.1.getD 0 }

/-- The directory `/testdir1` is in memory as node 1 and linked to the root. -/
def dirVfs : Vfs Unit :=
  (addChild 0 1 (TestFs.text "testdir1")
    ((getNode testMounts 0 (TestFs.text "testdir1") bootVfs).get
      (by decide +kernel)).2).2

/-- The root is the only node in memory. -/
theorem bootVfs_fsnodes : bootVfs.fsnodes =
    Function.update zeroVfs.fsnodes 0
      (TestFs.fill TestFs.idRootDir
        { zeroVfs.fsnodes 0 with mountpoint := some 0 }) := by
  have missing : findNodeById zeroVfs 0 TestFs.idRootDir = none := by
    decide +kernel
  have free : findFreeNode zeroVfs = some 0 := by decide +kernel
  have root : TestFs.Exists TestFs.idRootDir := by decide
  simp [bootVfs, getNodeByid, missing, free, Vfs.nodeReplied, Vfs.setNode,
    testMounts, TestFs.testfsType, TestFs.nodeFromId, root]

end ForsKernel.Fs
