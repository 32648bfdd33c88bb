import ForsKernel.Lib.LinkedList
import ForsKernel.Lib.Transition
import ForsKernel.Fs.TestFs

/-!
# The child lists of directories

The links of a directory form a doubly linked list which hangs off its node.
`add_child` puts a link in front of it.  `del_child` takes a link out and picks
a new head, and then sets the head to `NULL` all the same, so that every other
link of the list is lost.
-/

namespace ForsKernel.Fs

open ForsKernel.Lib.LinkedList
open ForsKernel.Lib.Transition

variable {ω : Type*}

/-! ## Lists -/

def Vfs.linkNext
    (vfs : Vfs ω)
    (link : Option Nat) :
    Option Nat :=
  link.bind fun i => (vfs.fslinks i).next

def Vfs.linkPrev
    (vfs : Vfs ω)
    (link : Option Nat) :
    Option Nat :=
  link.bind fun i => (vfs.fslinks i).prev

/-- Following `next` from the child of the parent visits these links. -/
def ChildList
    (vfs : Vfs ω)
    (parent : Nat)
    (links : List Nat) :
    Prop :=
  IsList none vfs.linkNext vfs.linkPrev (vfs.fsnodes parent).child
    (links.map some)

theorem childList_nil
    {vfs : Vfs ω}
    {parent : Nat}
    (empty : (vfs.fsnodes parent).child = none) :
    ChildList vfs parent [] := by
  rw [ChildList, empty]
  exact IsList.empty none _ _

/-- There is one list at most. -/
theorem ChildList.unique
    {vfs : Vfs ω}
    {parent : Nat}
    {links links' : List Nat}
    (list : ChildList vfs parent links)
    (list' : ChildList vfs parent links') :
    links = links' :=
  List.map_injective_iff.mpr (Option.some_injective _)
    (IsList.unique list list')

section

variable
  {vfs vfs' : Vfs ω}
  {parent link : Nat}
  {links : List Nat}

/-- The head of a list is one of its links. -/
theorem ChildList.head_mem
    (list : ChildList vfs parent links)
    {first : Nat}
    (isFirst : (vfs.fsnodes parent).child = some first) :
    first ∈ links := by
  have member := IsList.head_mem list (by rw [isFirst]; simp)
  rw [isFirst] at member
  simpa using member

/-- A link which is put in front of the list. -/
theorem ChildList.cons
    (list : ChildList vfs parent links)
    (fresh : link ∉ links)
    (head : (vfs'.fsnodes parent).child = some link)
    (next : ∀ i, (vfs'.fslinks i).next =
      if i = link then (vfs.fsnodes parent).child
      else (vfs.fslinks i).next)
    (prev : ∀ i, (vfs'.fslinks i).prev =
      if i = link then none
      else if (vfs.fsnodes parent).child = some i then some link
      else (vfs.fslinks i).prev) :
    ChildList vfs' parent (link :: links) := by
  have different {i : Nat} (member : i ∈ links) : i ≠ link := by
    rintro rfl
    exact fresh member
  have front : (vfs.fsnodes parent).child =
      frontOr none (links.map some) := list.head_eq
  have before : IsList none vfs.linkNext vfs.linkPrev
      (vfs.fsnodes parent).child ([] ++ links.map some) := list
  have extended : IsList none vfs'.linkNext vfs'.linkPrev (some link)
      ([] ++ some link :: links.map some) := by
    apply before.splice
    · simp
    · simpa using fresh
    · simp [Vfs.linkNext, next, front]
    · simp [Vfs.linkPrev, prev]
    · simp
    · rintro _ member _
      rcases List.mem_map.mp member with ⟨i, inside, rfl⟩
      simp [Vfs.linkNext, next, different inside]
    · rintro _ member isFront
      rcases List.mem_map.mp member with ⟨i, inside, rfl⟩
      have isHead := front.trans isFront.symm
      simp [Vfs.linkPrev, prev, different inside, isHead]
    · rintro _ member notFront
      rcases List.mem_map.mp member with ⟨i, inside, rfl⟩
      simp [Vfs.linkPrev, prev, different inside, front, Ne.symm notFront]
    · simp
    · simp
  rw [ChildList, head]
  exact extended

end

/-! ## The two operations -/

section

variable
  {vfs vfs' : Vfs ω}
  {parent : Nat}

theorem findFreeLink_spec
    {link : Nat}
    (found : findFreeLink vfs = some link) :
    link < numFslinks ∧ (vfs.fslinks link).node = none := by
  have member := List.mem_of_find?_eq_some found
  have free := List.find?_some found
  exact ⟨List.mem_range.mp member, by simpa using free⟩

/-- What `add_child` leaves behind: nothing new, or a link in front. -/
theorem addChild_cases
    (parent new : Nat)
    (name : CString)
    (vfs : Vfs ω) :
    addChild parent new name vfs = (-1, vfs) ∨
      ∃ link after, findFreeLink vfs = some link ∧
        addChild parent new name vfs = (0, after) ∧
        ((vfs.fsnodes parent).child ≠ some link →
          (after.fsnodes parent).child = some link ∧
          (∀ i, (after.fslinks i).next =
            if i = link then (vfs.fsnodes parent).child
            else (vfs.fslinks i).next) ∧
          (∀ i, (after.fslinks i).prev =
            if i = link then none
            else if (vfs.fsnodes parent).child = some i then some link
            else (vfs.fslinks i).prev) ∧
          ∀ i, (after.fslinks i).node =
            if i = link then some new else (vfs.fslinks i).node) := by
  rw [addChild]
  split
  · exact .inl rfl
  · rename_i link free
    split
    · exact .inl rfl
    · refine .inr ⟨link, ?_⟩
      have sameChild : ((vfs.setLink link ⟨name, some new, none,
          none⟩).fsnodes parent).child = (vfs.fsnodes parent).child := rfl
      simp only [sameChild]
      split
      · rename_i head
        refine ⟨_, free, rfl, fun _ => ⟨?_, ?_, ?_, ?_⟩⟩
        · simp [Vfs.setChild, Vfs.setNode]
        all_goals
          intro i
          by_cases here : i = link
          · simp [Vfs.setChild, Vfs.setNode, Vfs.setLink, here, head]
          · simp [Vfs.setChild, Vfs.setNode, Vfs.setLink, here, head]
      · rename_i first head
        refine ⟨_, free, rfl, fun apart => ⟨?_, ?_, ?_, ?_⟩⟩
        · simp [Vfs.setChild, Vfs.setNode]
        all_goals
          have other : first ≠ link := by
            rintro rfl
            exact apart head
          intro i
          by_cases here : i = link
          · simp [Vfs.setChild, Vfs.setNode, Vfs.setLinkNext,
              Vfs.setLinkPrev, Vfs.setLink, here, head, other, Ne.symm other]
          · by_cases isFirst : i = first
            · simp [Vfs.setChild, Vfs.setNode, Vfs.setLinkNext,
                Vfs.setLinkPrev, Vfs.setLink, head, isFirst, other]
            · simp [Vfs.setChild, Vfs.setNode, Vfs.setLinkNext,
                Vfs.setLinkPrev, Vfs.setLink, here, head, isFirst,
                Ne.symm isFirst]

theorem setLinkNext_node
    (vfs : Vfs ω)
    (link : Nat)
    (next : Option Nat)
    (i : Nat) :
    ((vfs.setLinkNext link next).fslinks i).node = (vfs.fslinks i).node := by
  by_cases here : i = link
  · simp [Vfs.setLinkNext, Vfs.setLink, here]
  · simp [Vfs.setLinkNext, Vfs.setLink, here]

theorem setLinkPrev_node
    (vfs : Vfs ω)
    (link : Nat)
    (prev : Option Nat)
    (i : Nat) :
    ((vfs.setLinkPrev link prev).fslinks i).node = (vfs.fslinks i).node := by
  by_cases here : i = link
  · simp [Vfs.setLinkPrev, Vfs.setLink, here]
  · simp [Vfs.setLinkPrev, Vfs.setLink, here]

theorem skipForward_node
    (vfs : Vfs ω)
    (link i : Nat) :
    ((vfs.skipForward link).fslinks i).node = (vfs.fslinks i).node := by
  rw [Vfs.skipForward]
  split
  · rfl
  · exact setLinkNext_node _ _ _ _

theorem skipBackward_node
    (vfs : Vfs ω)
    (link i : Nat) :
    ((vfs.skipBackward link).fslinks i).node = (vfs.fslinks i).node := by
  rw [Vfs.skipBackward]
  split
  · rfl
  · exact setLinkPrev_node _ _ _ _

theorem rehead_links
    (vfs : Vfs ω)
    (parent link : Nat) :
    (vfs.rehead parent link).fslinks = vfs.fslinks := by
  rw [Vfs.rehead]
  split_ifs <;> rfl

/-- After `del_child` the parent has no list, and the link is free. -/
theorem delChild_empties
    {toDel : Nat}
    {ret : Int}
    (returned : delChild parent toDel vfs = some (ret, vfs')) :
    (vfs'.fsnodes parent).child = none ∧
      ∀ i, (vfs'.fslinks i).node =
        if i = toDel then none else (vfs.fslinks i).node := by
  rcases Option.map_eq_some_iff.mp returned with ⟨node, _, rest⟩
  cases rest
  constructor
  · simp [Vfs.setChild, Vfs.setNode]
  · intro i
    have links : (((((vfs.release node).setLinkNode toDel
        none).skipForward toDel).skipBackward toDel).rehead parent
          toDel).fslinks = _ := rehead_links _ _ _
    simp only [Vfs.setChild, Vfs.setNode, links, skipBackward_node,
      skipForward_node]
    by_cases here : i = toDel
    · simp [Vfs.setLinkNode, Vfs.setLink, here]
    · simp [Vfs.setLinkNode, Vfs.setLink, Vfs.release, Vfs.setNode, here]

end

/-! ## Runs -/

/-- The tables, with the links added and not deleted, most recent first. -/
structure Children (ω : Type*) where
  vfs : Vfs ω
  added : List Nat

inductive ChildOp where
  | addChild (new : Nat) (name : CString)
  | delChild (toDel : Nat)

namespace ChildOp

/-- A link is deleted from the list it is in. -/
def Legal
    (parent : Nat)
    (state : Children ω) :
    ChildOp → Prop
  | .addChild _ _ => True
  | .delChild toDel =>
      ∃ links, ChildList state.vfs parent links ∧ toDel ∈ links

/-- A link which was added successfully is the one which was free. -/
def step
    (parent : Nat)
    (state : Children ω) :
    ChildOp → Option (Children ω)
  | .addChild new name =>
      let result := Fs.addChild parent new name state.vfs
      some ⟨result.2,
        if result.1 = 0 then (findFreeLink state.vfs).toList ++ state.added
        else state.added⟩
  | .delChild toDel =>
      (Fs.delChild parent toDel state.vfs).map fun result =>
        ⟨result.2, state.added.erase toDel⟩

/-- No link but the only one of the list is deleted. -/
def Lonely (state : Children ω) : ChildOp → Prop
  | .addChild _ _ => True
  | .delChild toDel => state.added = [toDel]

end ChildOp

/-- Links are added to a directory which has none, and deleted. -/
def childSystem (parent : Nat) : System (Children ω) ChildOp where
  init := fun state =>
    (state.vfs.fsnodes parent).child = none ∧ state.added = []
  legal := ChildOp.Legal parent
  step := ChildOp.step parent

/-- The links which were added are in the list, or no longer reachable. -/
structure Tracks
    (parent : Nat)
    (state : Children ω)
    (listed strays : List Nat) :
    Prop where
  added : state.added = listed ++ strays
  list : ChildList state.vfs parent listed
  nodup : state.added.Nodup
  inUse : ∀ link ∈ state.added, (state.vfs.fslinks link).node ≠ none

section

variable
  {parent : Nat}
  {state state' : Children ω}
  {listed strays : List Nat}

/-- The list is right just when no link has been lost. -/
theorem Tracks.right_iff (tracks : Tracks parent state listed strays) :
    ChildList state.vfs parent state.added ↔ strays = [] := by
  constructor
  · intro right
    have same := right.unique tracks.list
    rw [tracks.added] at same
    simpa using same
  · intro none
    have whole := tracks.added
    rw [none, List.append_nil] at whole
    rw [whole]
    exact tracks.list

theorem Tracks.addChild
    (tracks : Tracks parent state listed strays)
    {new : Nat}
    {name : CString}
    (stepped : (ChildOp.addChild new name).step parent state = some state') :
    ∃ listed', Tracks parent state' listed' strays := by
  cases stepped
  rcases addChild_cases parent new name state.vfs with
    failed | ⟨link, after, free, succeeded, effect⟩
  · simp only [failed]
    exact ⟨listed, tracks⟩
  · rcases findFreeLink_spec free with ⟨_, isFree⟩
    have fresh : link ∉ state.added := by
      intro member
      exact tracks.inUse link member isFree
    have freshListed : link ∉ listed := by
      intro member
      apply fresh
      rw [tracks.added]
      exact List.mem_append_left _ member
    have apart : (state.vfs.fsnodes parent).child ≠ some link := by
      intro head
      exact freshListed (tracks.list.head_mem head)
    rcases effect apart with ⟨head, next, prev, nodes⟩
    simp only [succeeded, free, if_true, Option.toList_some,
      List.singleton_append]
    refine ⟨link :: listed, ?_, ?_, ?_, ?_⟩
    · simp [tracks.added]
    · exact tracks.list.cons freshListed head next prev
    · exact List.nodup_cons.mpr ⟨fresh, tracks.nodup⟩
    · intro other member
      rw [nodes]
      split_ifs with here
      · simp
      · exact tracks.inUse other
          ((List.mem_cons.mp member).resolve_left here)

theorem Tracks.delChild
    (tracks : Tracks parent state listed strays)
    {toDel : Nat}
    (member : toDel ∈ listed)
    (stepped : (ChildOp.delChild toDel).step parent state = some state') :
    Tracks parent state' [] (listed.erase toDel ++ strays) := by
  rcases Option.map_eq_some_iff.mp stepped with ⟨⟨ret, after⟩, returned, rfl⟩
  rcases delChild_empties returned with ⟨empty, nodes⟩
  refine ⟨?_, childList_nil empty, tracks.nodup.erase toDel, ?_⟩
  · rw [tracks.added, List.nil_append, List.erase_append_left _ member]
  · intro link inside
    have different : link ≠ toDel := by
      rintro rfl
      exact tracks.nodup.not_mem_erase inside
    rw [nodes, if_neg different]
    exact tracks.inUse link (List.mem_of_mem_erase inside)

/-- A step loses no link just when it deletes none but the only one. -/
theorem Tracks.step
    (tracks : Tracks parent state listed strays)
    {op : ChildOp}
    (last : (childSystem parent).Step state op state') :
    ∃ listed' strays', Tracks parent state' listed' strays' ∧
      (strays' = [] ↔ strays = [] ∧ op.Lonely state) := by
  rcases last with ⟨legal, stepped⟩
  replace stepped : op.step parent state = some state' := stepped
  cases op with
  | addChild new name =>
      rcases tracks.addChild stepped with ⟨listed', tracks'⟩
      exact ⟨listed', strays, tracks', by simp [ChildOp.Lonely]⟩
  | delChild toDel =>
      rcases legal with ⟨links, list, inside⟩
      cases list.unique tracks.list
      refine ⟨_, _, tracks.delChild inside stepped, ?_⟩
      rw [ChildOp.Lonely, tracks.added, List.append_eq_nil_iff,
        List.erase_eq_nil_iff, and_comm]
      apply and_congr_right
      rintro rfl
      have nonempty : listed ≠ [] := List.ne_nil_of_mem inside
      simp [nonempty]

/--
In a run on a directory without links, the list is that of the links added
successfully and not deleted just when no link was deleted but the only one of
the list; a call of `add_child` which fails changes nothing.
-/
theorem child_list_iff
    {start : Children ω}
    {ops : List ChildOp}
    (initial : (childSystem parent).init start)
    (run : (childSystem parent).Run start ops state) :
    (ChildList state.vfs parent state.added ↔
      ((childSystem parent).restrict
        fun before op => op.Lonely before).Run start ops state) ∧
    ∀ new name after, addChild parent new name state.vfs = (-1, after) →
      after = state.vfs := by
  have tracks : Tracks parent start [] [] := by
    rcases initial with ⟨empty, none⟩
    refine ⟨none, childList_nil empty, ?_, ?_⟩
    · rw [none]
      exact List.nodup_nil
    · simp [none]
  constructor
  · apply @System.Run.kept_iff _ _ _ _
      (fun state => ChildList state.vfs parent state.added)
      (fun state => ∃ listed strays, Tracks parent state listed strays)
      _ _ _ run
    · exact ⟨[], [], tracks⟩
    · exact tracks.right_iff.mpr rfl
    · rintro before op after ⟨listed, strays, tracks⟩ last
      rcases tracks.step last with ⟨listed', strays', tracks', _⟩
      exact ⟨listed', strays', tracks'⟩
    · rintro before op after ⟨listed, strays, tracks⟩ last right
      rcases tracks.step last with ⟨listed', strays', tracks', lost⟩
      exact tracks.right_iff.mpr (lost.mp (tracks'.right_iff.mp right)).1
    · rintro before op after ⟨listed, strays, tracks⟩ right last
      rcases tracks.step last with ⟨listed', strays', tracks', lost⟩
      rw [tracks'.right_iff, lost, tracks.right_iff.mp right]
      simp
  · intro new name after failed
    rcases addChild_cases parent new name state.vfs with
      same | ⟨_, _, _, succeeded, _⟩
    · rw [same] at failed
      cases failed
      rfl
    · rw [succeeded] at failed
      cases failed

end

/-! Links from the root to itself, with the tables the kernel starts with. -/

/-- A link with the name `a`. -/
def oneChild : Children Unit :=
  ((ChildOp.addChild 0 (TestFs.text "a")).step 0 ⟨bootVfs, []⟩).get
    (by decide +kernel)

/-- A link with the name `b` in front of it. -/
def twoChildren : Children Unit :=
  ((ChildOp.addChild 0 (TestFs.text "b")).step 0 oneChild).get
    (by decide +kernel)

/-- The first link is deleted, and was the only one. -/
def noChild : Children Unit :=
  ((ChildOp.delChild 0).step 0 oneChild).get (by decide +kernel)

/-- The second link is deleted. -/
def lostChild : Children Unit :=
  ((ChildOp.delChild 1).step 0 twoChildren).get (by decide +kernel)

theorem oneChild_list : ChildList oneChild.vfs 0 [0] := by
  refine ⟨by decide +kernel, by decide, by decide, ?_⟩
  exact ⟨by decide +kernel, by decide +kernel, trivial⟩

theorem twoChildren_list : ChildList twoChildren.vfs 0 [1, 0] := by
  refine ⟨by decide +kernel, by decide, by decide, ?_⟩
  exact ⟨by decide +kernel, by decide +kernel, by decide +kernel,
    by decide +kernel, trivial⟩

theorem childSystem_init :
    (childSystem 0).init (⟨bootVfs, []⟩ : Children Unit) :=
  ⟨by decide +kernel, rfl⟩

theorem childSystem_step
    {parent : Nat}
    {state state' : Children ω}
    {op : ChildOp}
    (legal : op.Legal parent state)
    (stepped : op.step parent state = some state') :
    (childSystem parent).Step state op state' :=
  ⟨legal, stepped⟩

theorem oneChild_step : (childSystem 0).Step ⟨bootVfs, []⟩
    (.addChild 0 (TestFs.text "a")) oneChild :=
  childSystem_step trivial (Option.some_get _).symm

theorem child_list_iff_none : ChildList noChild.vfs 0 noChild.added := by
  have second : (childSystem 0).Step oneChild (.delChild 0) noChild :=
    childSystem_step ⟨[0], oneChild_list, by decide⟩
      (Option.some_get _).symm
  have only : oneChild.added = [0] := by decide +kernel
  have run := ((System.Run.nil _).snoc oneChild_step).snoc second
  apply (child_list_iff childSystem_init run).1.mpr
  exact ((System.Run.nil _).snoc (oneChild_step.restrict trivial)).snoc
    (second.restrict only)

/-- The list is empty, although the other link was not deleted. -/
theorem child_list_lost :
    ¬ ∀ (parent : Nat) (start state : Children Unit) (ops : List ChildOp),
      (childSystem parent).init start →
      (childSystem parent).Run start ops state →
      ChildList state.vfs parent state.added := by
  intro always
  have second : (childSystem 0).Step oneChild
      (.addChild 0 (TestFs.text "b")) twoChildren :=
    childSystem_step trivial (Option.some_get _).symm
  have third : (childSystem 0).Step twoChildren (.delChild 1) lostChild :=
    childSystem_step ⟨[1, 0], twoChildren_list, by decide⟩
      (Option.some_get _).symm
  have run := (((System.Run.nil _).snoc oneChild_step).snoc second).snoc third
  have list := always 0 _ _ _ childSystem_init run
  have left : lostChild.added = [0] := by decide +kernel
  have empty : (lostChild.vfs.fsnodes 0).child = none := by decide +kernel
  have head := list.head_eq
  rw [left, empty] at head
  cases head

end ForsKernel.Fs
