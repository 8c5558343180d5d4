import Mathlib.Data.List.Induction
import Mathlib.Logic.Function.Basic

/-
  Strings that are copied with their representation.

  A short string is kept inside of its object.  A long one is
  a pointer to a buffer with a size and a capacity, and a text
  that fits is written into the buffer.  Objects that were
  copied bit by bit share the buffer, so what is written to
  one of them shows in all, and a buffer that one of them has
  outgrown is gone for the others.

  The objects here are made one after another, each as a copy
  of an older one or empty, and a text may be assigned to each
  when it is made.

  Main declarations:
    * `SharedText.Memory`
    * `SharedText.Memory.assign`
    * `SharedText.Plan`
    * `SharedText.Shared`
    * `SharedText.run_shared`
    * `SharedText.run_read_iff`
-/

------------------------------------------------------------
-- Objects And Buffers
------------------------------------------------------------

namespace SharedText

/-
  What an implementation fixes: the room inside of an object,
  and the room of a new buffer for a text that had too little.
-/
structure Layout (α : Type) where
  null : α
  short : Nat
  grown : Nat → Nat → Nat
  fits : ∀ capacity size, size ≤ grown capacity size

inductive Object (α : Type) where
| short (text : List α)
| long (buffer size capacity : Nat)

/- A buffer that was freed is not handed out again. -/
structure Memory (ι α : Type) where
  object : ι → Object α
  buffers : Nat → Option (List α)
  next : Nat

namespace Memory

variable {ι α : Type} [DecidableEq ι]

def initial : Memory ι α where
  object := fun _ => .short []
  buffers := fun _ => none
  next := 0

/- The text of an object, unless its buffer was freed. -/
def read
    (mem : Memory ι α)
    (i : ι) :
    Option (List α) :=
  match mem.object i with
  | .short text => some text
  | .long buffer size _ =>
      (mem.buffers buffer).map (List.take size)

/- The bits of one object over those of another. -/
def copy
    (mem : Memory ι α)
    (i source : ι) :
    Memory ι α :=
  { mem with
    object :=
      Function.update mem.object i (mem.object source) }

/- A text and its null character over a buffer's front. -/
def overwrite
    (layout : Layout α)
    (text buffer : List α) :
    List α :=
  text ++ layout.null :: buffer.drop (text.length + 1)

/- A text in a buffer of its own. -/
def place
    (layout : Layout α)
    (mem : Memory ι α)
    (i : ι)
    (capacity : Nat)
    (text : List α) :
    Memory ι α where
  object :=
    Function.update mem.object i
      (.long mem.next text.length
        (layout.grown capacity text.length))
  buffers :=
    Function.update mem.buffers mem.next
      (some (overwrite layout text []))
  next := mem.next + 1

def free
    (mem : Memory ι α)
    (buffer : Nat) :
    Memory ι α :=
  { mem with
    buffers := Function.update mem.buffers buffer none }

/- The text of a freed buffer stays lost. -/
def assign
    (layout : Layout α)
    (mem : Memory ι α)
    (i : ι)
    (text : List α) :
    Memory ι α :=
  match mem.object i with
  | .short _ =>
      if text.length ≤ layout.short then
        { mem with
          object :=
            Function.update mem.object i (.short text) }
      else
        mem.place layout i layout.short text
  | .long buffer _ capacity =>
      if text.length ≤ capacity then
        { mem with
          object :=
            Function.update mem.object i
              (.long buffer text.length capacity)
          buffers :=
            Function.update mem.buffers buffer
              ((mem.buffers buffer).map
                (overwrite layout text)) }
      else
        (mem.free buffer).place layout i capacity text

end Memory

end SharedText

------------------------------------------------------------
-- Objects Made In Turn
------------------------------------------------------------

namespace SharedText

variable {ι α : Type} [DecidableEq ι]

/- What each object is copied from, and is assigned then. -/
structure Plan (ι α : Type) where
  parent : ι → Option ι
  assigned : ι → Option (List α)

def inherit
    (plan : Plan ι α)
    (mem : Memory ι α)
    (i : ι) :
    Memory ι α :=
  match plan.parent i with
  | none => mem
  | some parent => mem.copy i parent

def turn
    (layout : Layout α)
    (plan : Plan ι α)
    (mem : Memory ι α)
    (i : ι) :
    Memory ι α :=
  match plan.assigned i with
  | none => inherit plan mem i
  | some text => (inherit plan mem i).assign layout i text

def run
    (layout : Layout α)
    (plan : Plan ι α)
    (order : List ι) :
    Memory ι α :=
  order.foldl (turn layout plan) Memory.initial

/- Every object is made once, and after its parent. -/
inductive Ordered (plan : Plan ι α) : List ι → Prop where
| nil : Ordered plan []
| snoc
    {made : List ι}
    {i : ι}
    (hMade : Ordered plan made)
    (hNew : i ∉ made)
    (hParent : ∀ p, plan.parent i = some p → p ∈ made) :
    Ordered plan (made ++ [i])

omit [DecidableEq ι] in
/- An order of increasing rank, in which parents rank lower. -/
theorem ordered_of_rank
    {plan : Plan ι α}
    {rank : ι → Nat}
    {made rest : List ι}
    (hRank :
      (made ++ rest).Pairwise (fun i j => rank i < rank j))
    (hParent :
      ∀ i p,
        plan.parent i = some p →
        p ∈ made ++ rest ∧ rank p < rank i) :
    Ordered plan made := by
  induction made using List.reverseRecOn generalizing rest with
  | nil => exact .nil
  | append_singleton made i ih =>
      rw [List.append_assoc] at hRank hParent
      rcases List.pairwise_append.mp hRank with
        ⟨_, hRest, hAcross⟩
      have hLater :=
        (List.pairwise_cons.mp hRest).1
      refine .snoc (ih hRank hParent) ?_ ?_
      · intro hIn
        exact
          Nat.lt_irrefl _ (hAcross i hIn i (by simp))
      · intro p hSome
        rcases hParent i p hSome with ⟨hIn, hLess⟩
        rcases List.mem_append.mp hIn with hMade | hOther
        · exact hMade
        · rcases List.mem_cons.mp hOther with rfl | hMore
          · exact absurd hLess (Nat.lt_irrefl _)
          · have hUp := hLater p hMore
            omega

/-
  The text that each object was meant to show, and the object
  that allocated the buffer it was given: the oldest ancestor
  with a text that is not short.
-/
structure Traced
    (layout : Layout α)
    (plan : Plan ι α)
    (shown : ι → List α)
    (owner : ι → Option ι) : Prop where
  shown_assigned :
    ∀ i text,
      plan.assigned i = some text → shown i = text
  shown_copied :
    ∀ i p,
      plan.assigned i = none →
      plan.parent i = some p →
      shown i = shown p
  shown_empty :
    ∀ i,
      plan.assigned i = none →
      plan.parent i = none →
      shown i = []
  owner_copied :
    ∀ i p o,
      plan.parent i = some p →
      owner p = some o →
      owner i = some o
  owner_self :
    ∀ i text,
      (∀ p, plan.parent i = some p → owner p = none) →
      plan.assigned i = some text →
      layout.short < text.length →
      owner i = some i
  owner_none :
    ∀ i,
      (∀ p, plan.parent i = some p → owner p = none) →
      (∀ text,
        plan.assigned i = some text →
        text.length ≤ layout.short) →
      owner i = none

/- The room of the buffer that an object allocates. -/
def room
    (layout : Layout α)
    (plan : Plan ι α)
    (o : ι) :
    Nat :=
  layout.grown layout.short
    ((plan.assigned o).getD []).length

/- Every text for the buffer of an object fits into it. -/
def Fits
    (layout : Layout α)
    (plan : Plan ι α)
    (owner : ι → Option ι)
    (made : List ι)
    (o : ι) :
    Prop :=
  ∀ i ∈ made,
    owner i = some o →
    ∀ text,
      plan.assigned i = some text →
      text.length ≤ room layout plan o

/- The text that was last written to the buffer. -/
def lastText
    (plan : Plan ι α)
    (owner : ι → Option ι)
    (made : List ι)
    (o : ι) :
    Option (List α) :=
  made.reverse.findSome? fun i =>
    if owner i = some o then plan.assigned i else none

/-
  What an object needs to read as wanted.  It has no buffer
  and was given this text, or the texts for its buffer all fit
  and the last of them begins with as much as it was given.
-/
def ReadsAs
    (layout : Layout α)
    (plan : Plan ι α)
    (shown : ι → List α)
    (owner : ι → Option ι)
    (made : List ι)
    (i : ι)
    (wanted : List α) :
    Prop :=
  match owner i with
  | none => shown i = wanted
  | some o =>
      Fits layout plan owner made o ∧
      ∃ text,
        lastText plan owner made o = some text ∧
        wanted.length = (shown i).length ∧
        wanted <+: text

end SharedText

------------------------------------------------------------
-- Shared Buffers
------------------------------------------------------------

namespace SharedText

variable {ι α : Type}
variable {layout : Layout α}
variable {plan : Plan ι α}
variable {shown : ι → List α}
variable {owner : ι → Option ι}
variable {made : List ι}
variable {mem : Memory ι α}

theorem fits_snoc_iff
    {i o : ι} :
    Fits layout plan owner (made ++ [i]) o ↔
      Fits layout plan owner made o ∧
        (owner i = some o →
          ∀ text,
            plan.assigned i = some text →
            text.length ≤ room layout plan o) := by
  simp only [Fits, List.mem_append, List.mem_singleton]
  constructor
  · intro hFits
    exact ⟨fun j hIn => hFits j (Or.inl hIn),
      hFits i (Or.inr rfl)⟩
  · rintro ⟨hFits, hLast⟩ j (hIn | rfl)
    · exact hFits j hIn
    · exact hLast

variable [DecidableEq ι]

theorem lastText_snoc
    (i o : ι) :
    lastText plan owner (made ++ [i]) o =
      if owner i = some o ∧ (plan.assigned i).isSome then
        plan.assigned i
      else
        lastText plan owner made o := by
  unfold lastText
  rw [List.reverse_append, List.reverse_singleton,
    List.singleton_append, List.findSome?_cons]
  by_cases hOwner : owner i = some o
  · cases hText : plan.assigned i with
    | none => simp [hOwner]
    | some text => simp [hOwner]
  · simp [hOwner]

/- The objects of one buffer, none of which has outgrown it. -/
structure Whole
    (layout : Layout α)
    (plan : Plan ι α)
    (shown : ι → List α)
    (owner : ι → Option ι)
    (made : List ι)
    (mem : Memory ι α)
    (o : ι)
    (buffer : Nat)
    (text rest : List α) : Prop where
  last : lastText plan owner made o = some text
  content :
    mem.buffers buffer = some (text ++ layout.null :: rest)
  object :
    ∀ i ∈ made,
      owner i = some o →
      mem.object i =
        .long buffer (shown i).length (room layout plan o)
  size :
    ∀ i ∈ made,
      owner i = some o →
      (shown i).length ≤
        (text ++ layout.null :: rest).length

/- What holds between the memory and the objects made. -/
structure Shared
    (layout : Layout α)
    (plan : Plan ι α)
    (shown : ι → List α)
    (owner : ι → Option ι)
    (made : List ι)
    (mem : Memory ι α) : Prop where
  empty : ∀ i, i ∉ made → mem.object i = .short []
  owners :
    ∀ i ∈ made,
      ∀ o, owner i = some o → o ∈ made ∧ owner o = some o
  short :
    ∀ i ∈ made,
      owner i = none → mem.object i = .short (shown i)
  long :
    ∀ i ∈ made,
      ∀ o,
        owner i = some o →
        ∃ buffer size capacity,
          mem.object i = .long buffer size capacity
  below :
    ∀ i buffer size capacity,
      mem.object i = .long buffer size capacity →
      buffer < mem.next
  apart :
    ∀ i ∈ made,
      ∀ j ∈ made,
        ∀ buffer size capacity size' capacity',
          mem.object i = .long buffer size capacity →
          mem.object j = .long buffer size' capacity' →
          owner i = owner j
  whole :
    ∀ o ∈ made,
      owner o = some o →
      Fits layout plan owner made o →
      ∃ buffer text rest,
        Whole layout plan shown owner made mem o buffer
          text rest
  moved :
    ∀ o ∈ made,
      owner o = some o →
      ¬ Fits layout plan owner made o →
      ∃ buffer size capacity,
        mem.object o = .long buffer size capacity ∧
        mem.buffers buffer = none

theorem initial_shared :
    Shared layout plan shown owner [] Memory.initial where
  empty := fun _ _ => rfl
  owners := by simp
  short := by simp
  long := by simp
  below := by simp [Memory.initial]
  apart := by simp
  whole := by simp
  moved := by simp

end SharedText

------------------------------------------------------------
-- One Turn
------------------------------------------------------------

namespace SharedText

variable {ι α : Type} [DecidableEq ι]
variable {layout : Layout α}
variable {plan : Plan ι α}
variable {shown : ι → List α}
variable {owner : ι → Option ι}
variable {made : List ι}
variable {mem mem' : Memory ι α}
variable {i : ι}

/-
  A new object changes nothing for the objects of other
  buffers; what it does to its own buffer is left to show.
-/
theorem Shared.snoc
    (hShared : Shared layout plan shown owner made mem)
    (hNew : i ∉ made)
    {x : Object α}
    (hObject :
      mem'.object = Function.update mem.object i x)
    (hOthers :
      ∀ j ∈ made,
        ∀ buffer size capacity,
          mem.object j = .long buffer size capacity →
          owner j ≠ owner i →
          mem'.buffers buffer = mem.buffers buffer)
    (hNext : mem.next ≤ mem'.next)
    (hBelow :
      ∀ buffer size capacity,
        x = .long buffer size capacity → buffer < mem'.next)
    (hApart :
      ∀ j ∈ made,
        ∀ buffer size capacity size' capacity',
          x = .long buffer size capacity →
          mem.object j = .long buffer size' capacity' →
          owner j = owner i)
    (hShort : owner i = none → x = .short (shown i))
    (hLong :
      ∀ o,
        owner i = some o →
        (o ∈ made ++ [i] ∧ owner o = some o) ∧
        (∃ buffer size capacity,
          x = .long buffer size capacity) ∧
        (Fits layout plan owner (made ++ [i]) o →
          ∃ buffer text rest,
            Whole layout plan shown owner (made ++ [i]) mem'
              o buffer text rest) ∧
        (¬ Fits layout plan owner (made ++ [i]) o →
          ∃ buffer size capacity,
            mem'.object o = .long buffer size capacity ∧
            mem'.buffers buffer = none)) :
    Shared layout plan shown owner (made ++ [i]) mem' := by
  have hSelf : mem'.object i = x := by
    rw [hObject, Function.update_self]
  have hOld :
      ∀ j ∈ made, mem'.object j = mem.object j := by
    intro j hIn
    have hNe : j ≠ i := by
      rintro rfl
      exact hNew hIn
    rw [hObject, Function.update_of_ne hNe]
  have hFits :
      ∀ o,
        owner i ≠ some o →
        (Fits layout plan owner (made ++ [i]) o ↔
          Fits layout plan owner made o) := by
    intro o hOther
    rw [fits_snoc_iff]
    exact
      ⟨fun hBoth => hBoth.1,
        fun hMade => ⟨hMade, fun hSame => absurd hSame hOther⟩⟩
  have hOwners :
      ∀ o ∈ made ++ [i],
        owner o = some o → owner i ≠ some o → o ∈ made := by
    intro o hIn hOwn hOther
    rcases List.mem_append.mp hIn with hMade | hLast
    · exact hMade
    · rw [List.mem_singleton.mp hLast] at hOwn hOther
      exact absurd hOwn hOther
  refine
    { empty := ?_
      owners := ?_
      short := ?_
      long := ?_
      below := ?_
      apart := ?_
      whole := ?_
      moved := ?_ }
  · intro j hOut
    have hNe : j ≠ i := by
      rintro rfl
      exact hOut (List.mem_append_right _ (by simp))
    rw [hObject, Function.update_of_ne hNe]
    exact
      hShared.empty j
        (fun hIn => hOut (List.mem_append_left _ hIn))
  · intro j hIn o hOwner
    rcases List.mem_append.mp hIn with hMade | hLast
    · rcases hShared.owners j hMade o hOwner with
        ⟨hThere, hOwn⟩
      exact ⟨List.mem_append_left _ hThere, hOwn⟩
    · rw [List.mem_singleton.mp hLast] at hOwner
      exact (hLong o hOwner).1
  · intro j hIn hNone
    rcases List.mem_append.mp hIn with hMade | hLast
    · rw [hOld j hMade]
      exact hShared.short j hMade hNone
    · rw [List.mem_singleton.mp hLast] at hNone ⊢
      rw [hSelf]
      exact hShort hNone
  · intro j hIn o hOwner
    rcases List.mem_append.mp hIn with hMade | hLast
    · rw [hOld j hMade]
      exact hShared.long j hMade o hOwner
    · rw [List.mem_singleton.mp hLast] at hOwner ⊢
      rw [hSelf]
      exact (hLong o hOwner).2.1
  · intro j buffer size capacity hThere
    by_cases hSame : j = i
    · rw [hSame, hSelf] at hThere
      exact hBelow buffer size capacity hThere
    · rw [hObject, Function.update_of_ne hSame] at hThere
      exact
        Nat.lt_of_lt_of_le
          (hShared.below j buffer size capacity hThere) hNext
  · intro j hj k hk buffer size capacity size' capacity'
      hFirst hSecond
    rcases List.mem_append.mp hj with hj | hj
    · rw [hOld j hj] at hFirst
      rcases List.mem_append.mp hk with hk | hk
      · rw [hOld k hk] at hSecond
        exact
          hShared.apart j hj k hk _ _ _ _ _ hFirst hSecond
      · rw [List.mem_singleton.mp hk] at hSecond ⊢
        rw [hSelf] at hSecond
        exact hApart j hj _ _ _ _ _ hSecond hFirst
    · rw [List.mem_singleton.mp hj] at hFirst ⊢
      rw [hSelf] at hFirst
      rcases List.mem_append.mp hk with hk | hk
      · rw [hOld k hk] at hSecond
        exact (hApart k hk _ _ _ _ _ hFirst hSecond).symm
      · rw [List.mem_singleton.mp hk]
  · intro o hIn hOwn hRoom
    by_cases hMine : owner i = some o
    · exact (hLong o hMine).2.2.1 hRoom
    · have hMade := hOwners o hIn hOwn hMine
      rcases
        hShared.whole o hMade hOwn
          ((hFits o hMine).mp hRoom) with
        ⟨buffer, text, rest, hWhole⟩
      refine ⟨buffer, text, rest, ?_⟩
      refine
        { last := ?_
          content := ?_
          object := ?_
          size := ?_ }
      · rw [lastText_snoc, if_neg (fun hBoth => hMine hBoth.1)]
        exact hWhole.last
      · rw [hOthers o hMade _ _ _
          (hWhole.object o hMade hOwn)
          (fun hSame => hMine (hSame.symm.trans hOwn))]
        exact hWhole.content
      · intro j hj hOwner
        rcases List.mem_append.mp hj with hj | hj
        · rw [hOld j hj]
          exact hWhole.object j hj hOwner
        · rw [List.mem_singleton.mp hj] at hOwner
          exact absurd hOwner hMine
      · intro j hj hOwner
        rcases List.mem_append.mp hj with hj | hj
        · exact hWhole.size j hj hOwner
        · rw [List.mem_singleton.mp hj] at hOwner
          exact absurd hOwner hMine
  · intro o hIn hOwn hNot
    by_cases hMine : owner i = some o
    · exact (hLong o hMine).2.2.2 hNot
    · have hMade := hOwners o hIn hOwn hMine
      rcases
        hShared.moved o hMade hOwn
          (fun hRoom => hNot ((hFits o hMine).mpr hRoom)) with
        ⟨buffer, size, capacity, hThere, hGone⟩
      refine ⟨buffer, size, capacity, ?_, ?_⟩
      · rw [hOld o hMade]
        exact hThere
      · rw [hOthers o hMade _ _ _ hThere
          (fun hSame => hMine (hSame.symm.trans hOwn))]
        exact hGone

/- The object after the bits of the parent were copied. -/
def start
    (plan : Plan ι α)
    (mem : Memory ι α)
    (i : ι) :
    Object α :=
  match plan.parent i with
  | none => .short []
  | some parent => mem.object parent

theorem inherit_eq
    (hEmpty : mem.object i = .short []) :
    inherit plan mem i =
      { mem with
        object :=
          Function.update mem.object i
            (start plan mem i) } := by
  unfold inherit start
  cases hParent : plan.parent i with
  | none =>
      have hSame :
          Function.update mem.object i (.short []) =
            mem.object := by
        rw [← hEmpty, Function.update_eq_self]
      rw [hSame]
  | some parent => rfl

theorem turn_kept
    (hEmpty : mem.object i = .short [])
    (hNone : plan.assigned i = none) :
    turn layout plan mem i =
      { mem with
        object :=
          Function.update mem.object i
            (start plan mem i) } := by
  unfold turn
  rw [hNone]
  exact inherit_eq hEmpty

/- A short text stays inside of the object. -/
theorem turn_short
    (hEmpty : mem.object i = .short [])
    {text old : List α}
    (hText : plan.assigned i = some text)
    (hStart : start plan mem i = .short old)
    (hFits : text.length ≤ layout.short) :
    turn layout plan mem i =
      { mem with
        object :=
          Function.update mem.object i (.short text) } := by
  unfold turn
  rw [hText]
  dsimp only
  rw [inherit_eq hEmpty, hStart]
  simp [Memory.assign, hFits]

/- The first long text gets a buffer of its own. -/
theorem turn_placed
    (hEmpty : mem.object i = .short [])
    {text old : List α}
    (hText : plan.assigned i = some text)
    (hStart : start plan mem i = .short old)
    (hLong : layout.short < text.length) :
    turn layout plan mem i =
      mem.place layout i layout.short text := by
  unfold turn
  rw [hText]
  dsimp only
  rw [inherit_eq hEmpty, hStart]
  simp [Memory.assign, Memory.place, Nat.not_le.mpr hLong]

/- A text that fits is written into the copied buffer. -/
theorem turn_written
    (hEmpty : mem.object i = .short [])
    {text : List α}
    {buffer size capacity : Nat}
    (hText : plan.assigned i = some text)
    (hStart : start plan mem i = .long buffer size capacity)
    (hFits : text.length ≤ capacity) :
    turn layout plan mem i =
      { mem with
        object :=
          Function.update mem.object i
            (.long buffer text.length capacity)
        buffers :=
          Function.update mem.buffers buffer
            ((mem.buffers buffer).map
              (Memory.overwrite layout text)) } := by
  unfold turn
  rw [hText]
  dsimp only
  rw [inherit_eq hEmpty, hStart]
  simp [Memory.assign, hFits]

/- A text that does not fit frees the copied buffer. -/
theorem turn_moved
    (hEmpty : mem.object i = .short [])
    {text : List α}
    {buffer size capacity : Nat}
    (hText : plan.assigned i = some text)
    (hStart : start plan mem i = .long buffer size capacity)
    (hLong : capacity < text.length) :
    turn layout plan mem i =
      (mem.free buffer).place layout i capacity text := by
  unfold turn
  rw [hText]
  dsimp only
  rw [inherit_eq hEmpty, hStart]
  simp [Memory.assign, Memory.free, Memory.place,
    Nat.not_le.mpr hLong]

/- Without an owner every text has been short. -/
theorem Shared.turn_of_none
    (hTraced : Traced layout plan shown owner)
    (hShared : Shared layout plan shown owner made mem)
    (hNew : i ∉ made)
    (hParent : ∀ p, plan.parent i = some p → p ∈ made)
    (hNone : owner i = none) :
    Shared layout plan shown owner (made ++ [i])
      (turn layout plan mem i) := by
  have hEmpty := hShared.empty i hNew
  have hParents :
      ∀ p, plan.parent i = some p → owner p = none := by
    intro p hSome
    cases hOwner : owner p with
    | none => rfl
    | some o =>
        rw [hTraced.owner_copied i p o hSome hOwner] at hNone
        cases hNone
  have hObject :
      turn layout plan mem i =
        { mem with
          object :=
            Function.update mem.object i
              (.short (shown i)) } := by
    have hStart :
        ∃ old, start plan mem i = .short old ∧
          (plan.assigned i = none → shown i = old) := by
      unfold start
      cases hSome : plan.parent i with
      | none =>
          exact
            ⟨[], rfl,
              fun hKept => hTraced.shown_empty i hKept hSome⟩
      | some p =>
          refine
            ⟨shown p,
              hShared.short p (hParent p hSome)
                (hParents p hSome),
              fun hKept => ?_⟩
          exact hTraced.shown_copied i p hKept hSome
    rcases hStart with ⟨old, hStart, hOld⟩
    cases hText : plan.assigned i with
    | none =>
        rw [turn_kept hEmpty hText, hStart, hOld hText]
    | some text =>
        have hFits : text.length ≤ layout.short := by
          by_contra hNot
          have hSelf :=
            hTraced.owner_self i text hParents hText
              (Nat.lt_of_not_le hNot)
          rw [hSelf] at hNone
          cases hNone
        rw [turn_short hEmpty hText hStart hFits,
          hTraced.shown_assigned i text hText]
  rw [hObject]
  refine
    hShared.snoc hNew rfl (fun _ _ _ _ _ _ _ => rfl)
      (Nat.le_refl _) nofun (fun _ _ _ _ _ _ _ => nofun)
      (fun _ => rfl) ?_
  intro o hSome
  rw [hNone] at hSome
  cases hSome

/- An object that owns itself allocates its buffer. -/
theorem Shared.turn_of_self
    (hTraced : Traced layout plan shown owner)
    (hShared : Shared layout plan shown owner made mem)
    (hNew : i ∉ made)
    (hParent : ∀ p, plan.parent i = some p → p ∈ made)
    (hSelf : owner i = some i) :
    Shared layout plan shown owner (made ++ [i])
      (turn layout plan mem i) := by
  have hEmpty := hShared.empty i hNew
  have hNotMade :
      ∀ j ∈ made, owner j ≠ some i := by
    intro j hIn hOwner
    exact hNew (hShared.owners j hIn i hOwner).1
  have hParents :
      ∀ p, plan.parent i = some p → owner p = none := by
    intro p hSome
    cases hOwner : owner p with
    | none => rfl
    | some o =>
        have hCopied :=
          hTraced.owner_copied i p o hSome hOwner
        rw [hSelf] at hCopied
        rw [← Option.some.inj hCopied] at hOwner
        exact absurd hOwner (hNotMade p (hParent p hSome))
  have hStart : ∃ old, start plan mem i = .short old := by
    unfold start
    cases hSome : plan.parent i with
    | none => exact ⟨[], rfl⟩
    | some p =>
        exact
          ⟨shown p,
            hShared.short p (hParent p hSome)
              (hParents p hSome)⟩
  have hText :
      ∃ text,
        plan.assigned i = some text ∧
        layout.short < text.length := by
    by_contra hNot
    have hNone : owner i = none := by
      refine hTraced.owner_none i hParents ?_
      intro text hText
      exact
        Nat.le_of_not_lt
          (fun hLong => hNot ⟨text, hText, hLong⟩)
    rw [hSelf] at hNone
    cases hNone
  rcases hStart with ⟨old, hStart⟩
  rcases hText with ⟨text, hText, hLong⟩
  have hShown := hTraced.shown_assigned i text hText
  have hRoom :
      room layout plan i =
        layout.grown layout.short text.length := by
    simp [room, hText]
  rw [turn_placed hEmpty hText hStart hLong]
  refine
    hShared.snoc hNew rfl ?_ (Nat.le_succ _) ?_ ?_ ?_ ?_
  · intro j _ buffer size capacity hThere _
    have hBelow :=
      hShared.below j buffer size capacity hThere
    exact
      Function.update_of_ne (Nat.ne_of_lt hBelow) _ _
  · intro buffer size capacity hSame
    cases hSame
    exact Nat.lt_succ_self _
  · intro j _ buffer size capacity size' capacity' hSame hThere
    cases hSame
    exact
      absurd (hShared.below j _ _ _ hThere)
        (Nat.lt_irrefl _)
  · intro hNone
    rw [hSelf] at hNone
    cases hNone
  · intro o hOwner
    rw [hSelf] at hOwner
    cases hOwner
    have hObject :
        (mem.place layout i layout.short text).object i =
          .long mem.next (shown i).length
            (room layout plan i) := by
      rw [hShown, hRoom]
      exact Function.update_self _ _ _
    refine
      ⟨⟨List.mem_append_right _ (by simp), hSelf⟩,
        ⟨_, _, _, rfl⟩, fun _ => ⟨mem.next, text, [], ?_⟩,
        fun hNot => absurd ?_ hNot⟩
    · refine
        { last := ?_
          content := ?_
          object := ?_
          size := ?_ }
      · rw [lastText_snoc, if_pos ⟨hSelf, by simp [hText]⟩]
        exact hText
      · exact Function.update_self _ _ _
      · intro j hIn hOwner
        rcases List.mem_append.mp hIn with hMade | hLast
        · exact absurd hOwner (hNotMade j hMade)
        · rw [List.mem_singleton.mp hLast]
          exact hObject
      · intro j hIn hOwner
        rcases List.mem_append.mp hIn with hMade | hLast
        · exact absurd hOwner (hNotMade j hMade)
        · rw [List.mem_singleton.mp hLast, hShown]
          simp
    · refine fits_snoc_iff.mpr ⟨?_, ?_⟩
      · intro j hIn hOwner
        exact absurd hOwner (hNotMade j hIn)
      · intro _ text' hText'
        rw [hText] at hText'
        cases hText'
        rw [hRoom]
        exact layout.fits _ _

/-
  What an object has that is copied from one with a buffer:
  the buffer is that of its owner, unless the owner's is gone.
-/
structure Copied
    (layout : Layout α)
    (plan : Plan ι α)
    (shown : ι → List α)
    (owner : ι → Option ι)
    (made : List ι)
    (mem : Memory ι α)
    (i p o : ι)
    (buffer size capacity : Nat) : Prop where
  source : p ∈ made
  parent : plan.parent i = some p
  sourceOwner : owner p = some o
  ownOwner : owner i = some o
  ownerMade : o ∈ made
  ownerSelf : owner o = some o
  object : mem.object p = .long buffer size capacity

variable {p o : ι}
variable {buffer size capacity : Nat}

omit [DecidableEq ι] in
theorem Copied.start
    (hCopied :
      Copied layout plan shown owner made mem i p o buffer
        size capacity) :
    start plan mem i = .long buffer size capacity := by
  unfold SharedText.start
  rw [hCopied.parent]
  exact hCopied.object

/- A buffer that is whole is the one that was copied. -/
theorem Copied.whole
    (hCopied :
      Copied layout plan shown owner made mem i p o buffer
        size capacity)
    (hShared : Shared layout plan shown owner made mem)
    (hFits : Fits layout plan owner made o) :
    size = (shown p).length ∧
    capacity = room layout plan o ∧
    ∃ text rest,
      Whole layout plan shown owner made mem o buffer text
        rest := by
  rcases
    hShared.whole o hCopied.ownerMade hCopied.ownerSelf
      hFits with
    ⟨buffer', text, rest, hWhole⟩
  have hObject :=
    hWhole.object p hCopied.source hCopied.sourceOwner
  rw [hCopied.object] at hObject
  cases hObject
  exact ⟨rfl, rfl, text, rest, hWhole⟩

/- What the turn of a copied object leaves to show. -/
theorem Copied.snoc
    (hCopied :
      Copied layout plan shown owner made mem i p o buffer
        size capacity)
    (hShared : Shared layout plan shown owner made mem)
    (hNew : i ∉ made)
    {buffer' size' capacity' : Nat}
    (hObject :
      mem'.object =
        Function.update mem.object i
          (.long buffer' size' capacity'))
    (hPlace : buffer' = buffer ∨ buffer' = mem.next)
    (hOthers :
      ∀ other,
        other ≠ buffer →
        other < mem.next →
        mem'.buffers other = mem.buffers other)
    (hNext : mem.next ≤ mem'.next)
    (hBelow : buffer' < mem'.next)
    (hWhole :
      Fits layout plan owner (made ++ [i]) o →
      ∃ buffer text rest,
        Whole layout plan shown owner (made ++ [i]) mem' o
          buffer text rest)
    (hMoved :
      ¬ Fits layout plan owner (made ++ [i]) o →
      ∃ buffer size capacity,
        mem'.object o = .long buffer size capacity ∧
        mem'.buffers buffer = none) :
    Shared layout plan shown owner (made ++ [i]) mem' := by
  refine
    hShared.snoc hNew hObject ?_ hNext ?_ ?_ ?_ ?_
  · intro j hIn other size capacity hThere hOther
    refine
      hOthers other ?_ (hShared.below j _ _ _ hThere)
    rintro rfl
    have hSame :=
      hShared.apart j hIn p hCopied.source _ _ _ _ _ hThere
        hCopied.object
    rw [hCopied.sourceOwner, ← hCopied.ownOwner] at hSame
    exact hOther hSame
  · intro other size capacity hSame
    cases hSame
    exact hBelow
  · intro j hIn other size capacity size' capacity' hSame
      hThere
    cases hSame
    rcases hPlace with rfl | rfl
    · rw [hShared.apart j hIn p hCopied.source _ _ _ _ _ hThere
        hCopied.object, hCopied.sourceOwner, hCopied.ownOwner]
    · exact
        absurd (hShared.below j _ _ _ hThere)
          (Nat.lt_irrefl _)
  · intro hNone
    rw [hCopied.ownOwner] at hNone
    cases hNone
  · intro o' hOwner
    rw [hCopied.ownOwner] at hOwner
    cases hOwner
    exact
      ⟨⟨List.mem_append_left _ hCopied.ownerMade,
          hCopied.ownerSelf⟩,
        ⟨_, _, _, rfl⟩, hWhole, hMoved⟩

omit [DecidableEq ι] in
theorem Copied.ne
    (hCopied :
      Copied layout plan shown owner made mem i p o buffer
        size capacity)
    (hNew : i ∉ made) :
    o ≠ i := by
  rintro rfl
  exact hNew hCopied.ownerMade

/- An object without a text of its own is a mere copy. -/
theorem Copied.turn_of_none
    (hCopied :
      Copied layout plan shown owner made mem i p o buffer
        size capacity)
    (hTraced : Traced layout plan shown owner)
    (hShared : Shared layout plan shown owner made mem)
    (hNew : i ∉ made)
    (hNone : plan.assigned i = none) :
    Shared layout plan shown owner (made ++ [i])
      (turn layout plan mem i) := by
  rw [turn_kept (hShared.empty i hNew) hNone, hCopied.start]
  have hShown :=
    hTraced.shown_copied i p hNone hCopied.parent
  have hFits :
      Fits layout plan owner (made ++ [i]) o ↔
        Fits layout plan owner made o := by
    rw [fits_snoc_iff, hNone]
    simp
  refine
    hCopied.snoc hShared hNew rfl (Or.inl rfl)
      (fun _ _ _ => rfl) (Nat.le_refl _)
      (hShared.below p _ _ _ hCopied.object) ?_ ?_
  · intro hRoom
    rcases hCopied.whole hShared (hFits.mp hRoom) with
      ⟨rfl, rfl, text, rest, hWhole⟩
    refine
      ⟨buffer, text, rest,
        { last := ?_
          content := hWhole.content
          object := ?_
          size := ?_ }⟩
    · rw [lastText_snoc, if_neg (by simp [hNone])]
      exact hWhole.last
    · intro j hIn hOwner
      rcases List.mem_append.mp hIn with hMade | hLast
      · have hNe : j ≠ i := by
          rintro rfl
          exact hNew hMade
        dsimp only
        rw [Function.update_of_ne hNe]
        exact hWhole.object j hMade hOwner
      · rw [List.mem_singleton.mp hLast, hShown]
        exact Function.update_self _ _ _
    · intro j hIn hOwner
      rcases List.mem_append.mp hIn with hMade | hLast
      · exact hWhole.size j hMade hOwner
      · rw [List.mem_singleton.mp hLast, hShown]
        exact hWhole.size p hCopied.source hCopied.sourceOwner
  · intro hNot
    rcases
      hShared.moved o hCopied.ownerMade hCopied.ownerSelf
        (fun hRoom => hNot (hFits.mpr hRoom)) with
      ⟨other, size', capacity', hThere, hGone⟩
    refine ⟨other, size', capacity', ?_, hGone⟩
    dsimp only
    rw [Function.update_of_ne (hCopied.ne hNew)]
    exact hThere

/- A text that fits is seen by all objects of the buffer. -/
theorem Copied.turn_of_fits
    (hCopied :
      Copied layout plan shown owner made mem i p o buffer
        size capacity)
    (hTraced : Traced layout plan shown owner)
    (hShared : Shared layout plan shown owner made mem)
    (hNew : i ∉ made)
    {text : List α}
    (hText : plan.assigned i = some text)
    (hLess : text.length ≤ capacity) :
    Shared layout plan shown owner (made ++ [i])
      (turn layout plan mem i) := by
  rw [turn_written (hShared.empty i hNew) hText
    hCopied.start hLess]
  have hShown := hTraced.shown_assigned i text hText
  refine
    hCopied.snoc hShared hNew rfl (Or.inl rfl)
      (fun other hNe _ => Function.update_of_ne hNe _ _)
      (Nat.le_refl _)
      (hShared.below p _ _ _ hCopied.object) ?_ ?_
  · intro hRoom
    rcases
      hCopied.whole hShared (fits_snoc_iff.mp hRoom).1 with
      ⟨rfl, rfl, old, rest, hWhole⟩
    refine
      ⟨buffer, text,
        (old ++ layout.null :: rest).drop (text.length + 1),
        { last := ?_
          content := ?_
          object := ?_
          size := ?_ }⟩
    · rw [lastText_snoc,
        if_pos ⟨hCopied.ownOwner, by simp [hText]⟩]
      exact hText
    · dsimp only
      rw [Function.update_self, hWhole.content]
      rfl
    · intro j hIn hOwner
      rcases List.mem_append.mp hIn with hMade | hLast
      · have hNe : j ≠ i := by
          rintro rfl
          exact hNew hMade
        dsimp only
        rw [Function.update_of_ne hNe]
        exact hWhole.object j hMade hOwner
      · rw [List.mem_singleton.mp hLast, hShown]
        exact Function.update_self _ _ _
    · intro j hIn hOwner
      rw [List.length_append, List.length_cons,
        List.length_drop]
      rcases List.mem_append.mp hIn with hMade | hLast
      · have hSize := hWhole.size j hMade hOwner
        omega
      · rw [List.mem_singleton.mp hLast, hShown]
        omega
  · intro hNot
    have hOld : ¬ Fits layout plan owner made o := by
      intro hRoom
      rcases hCopied.whole hShared hRoom with ⟨_, rfl, _⟩
      refine hNot (fits_snoc_iff.mpr ⟨hRoom, ?_⟩)
      intro _ text' hText'
      rw [hText] at hText'
      cases hText'
      exact hLess
    rcases
      hShared.moved o hCopied.ownerMade hCopied.ownerSelf
        hOld with
      ⟨other, size', capacity', hThere, hGone⟩
    refine ⟨other, size', capacity', ?_, ?_⟩
    · dsimp only
      rw [Function.update_of_ne (hCopied.ne hNew)]
      exact hThere
    · dsimp only
      by_cases hSame : other = buffer
      · rw [hSame, Function.update_self, ← hSame, hGone]
        rfl
      · rw [Function.update_of_ne hSame]
        exact hGone

/- A text that does not fit takes the buffer from the others. -/
theorem Copied.turn_of_not_fits
    (hCopied :
      Copied layout plan shown owner made mem i p o buffer
        size capacity)
    (hShared : Shared layout plan shown owner made mem)
    (hNew : i ∉ made)
    {text : List α}
    (hText : plan.assigned i = some text)
    (hLong : capacity < text.length) :
    Shared layout plan shown owner (made ++ [i])
      (turn layout plan mem i) := by
  rw [turn_moved (hShared.empty i hNew) hText
    hCopied.start hLong]
  have hBelow := hShared.below p _ _ _ hCopied.object
  refine
    hCopied.snoc hShared hNew rfl (Or.inr rfl) ?_
      (Nat.le_succ _) (Nat.lt_succ_self _) ?_ ?_
  · intro other hNe hLess
    dsimp only [Memory.place, Memory.free]
    rw [Function.update_of_ne (Nat.ne_of_lt hLess),
      Function.update_of_ne hNe]
  · intro hRoom
    rcases fits_snoc_iff.mp hRoom with ⟨hOld, hOwn⟩
    rcases hCopied.whole hShared hOld with ⟨_, rfl, _⟩
    have hLess := hOwn hCopied.ownOwner text hText
    omega
  · intro _
    have hGone :
        ∃ other size' capacity',
          mem.object o = .long other size' capacity' ∧
          (other = buffer ∨ mem.buffers other = none) := by
      by_cases hRoom : Fits layout plan owner made o
      · rcases hCopied.whole hShared hRoom with
          ⟨_, _, _, _, hWhole⟩
        exact
          ⟨_, _, _,
            hWhole.object o hCopied.ownerMade
              hCopied.ownerSelf,
            Or.inl rfl⟩
      · rcases
          hShared.moved o hCopied.ownerMade
            hCopied.ownerSelf hRoom with
          ⟨other, size', capacity', hThere, hGone⟩
        exact ⟨other, size', capacity', hThere, Or.inr hGone⟩
    rcases hGone with
      ⟨other, size', capacity', hThere, hGone⟩
    have hOther := hShared.below o _ _ _ hThere
    refine ⟨other, size', capacity', ?_, ?_⟩
    · dsimp only [Memory.place, Memory.free]
      rw [Function.update_of_ne (hCopied.ne hNew)]
      exact hThere
    · dsimp only [Memory.place, Memory.free]
      rw [Function.update_of_ne (Nat.ne_of_lt hOther)]
      by_cases hSame : other = buffer
      · rw [hSame, Function.update_self]
      · rw [Function.update_of_ne hSame]
        exact hGone.resolve_left hSame

/- Every turn keeps what is known of the objects. -/
theorem Shared.turn
    (hTraced : Traced layout plan shown owner)
    (hShared : Shared layout plan shown owner made mem)
    (hNew : i ∉ made)
    (hParent : ∀ p, plan.parent i = some p → p ∈ made) :
    Shared layout plan shown owner (made ++ [i])
      (SharedText.turn layout plan mem i) := by
  cases hOwner : owner i with
  | none =>
      exact hShared.turn_of_none hTraced hNew hParent hOwner
  | some o =>
      by_cases hSelf : o = i
      · rw [hSelf] at hOwner
        exact
          hShared.turn_of_self hTraced hNew hParent hOwner
      · have hCopy :
            ∃ p,
              plan.parent i = some p ∧ owner p = some o := by
          by_contra hNot
          have hParents :
              ∀ p, plan.parent i = some p → owner p = none := by
            intro p hSome
            cases hThere : owner p with
            | none => rfl
            | some o' =>
                have hCopied :=
                  hTraced.owner_copied i p o' hSome hThere
                rw [hOwner] at hCopied
                cases hCopied
                exact absurd ⟨p, hSome, hThere⟩ hNot
          by_cases hLong :
              ∃ text,
                plan.assigned i = some text ∧
                layout.short < text.length
          · rcases hLong with ⟨text, hText, hLong⟩
            rw [hTraced.owner_self i text hParents hText
              hLong] at hOwner
            exact hSelf (Option.some.inj hOwner).symm
          · rw [hTraced.owner_none i hParents] at hOwner
            · cases hOwner
            · intro text hText
              exact
                Nat.le_of_not_lt
                  (fun hMore => hLong ⟨text, hText, hMore⟩)
        rcases hCopy with ⟨p, hSome, hThere⟩
        have hMade := hParent p hSome
        rcases hShared.owners p hMade o hThere with
          ⟨hOwnerMade, hOwnerSelf⟩
        rcases hShared.long p hMade o hThere with
          ⟨buffer, size, capacity, hObject⟩
        have hCopied :
            Copied layout plan shown owner made mem i p o
              buffer size capacity :=
          ⟨hMade, hSome, hThere, hOwner, hOwnerMade,
            hOwnerSelf, hObject⟩
        cases hText : plan.assigned i with
        | none =>
            exact
              hCopied.turn_of_none hTraced hShared hNew hText
        | some text =>
            by_cases hLess : text.length ≤ capacity
            · exact
                hCopied.turn_of_fits hTraced hShared hNew
                  hText hLess
            · exact
                hCopied.turn_of_not_fits hShared hNew hText
                  (Nat.lt_of_not_le hLess)

theorem run_snoc
    (order : List ι)
    (i : ι) :
    run layout plan (order ++ [i]) =
      turn layout plan (run layout plan order) i := by
  simp [run]

theorem run_shared
    (hTraced : Traced layout plan shown owner)
    (hOrdered : Ordered plan made) :
    Shared layout plan shown owner made
      (run layout plan made) := by
  induction hOrdered with
  | nil => exact initial_shared
  | snoc _ hNew hParent ih =>
      rw [run_snoc]
      exact ih.turn hTraced hNew hParent

end SharedText

------------------------------------------------------------
-- What Is Read
------------------------------------------------------------

namespace SharedText

variable {ι α : Type} [DecidableEq ι]
variable {layout : Layout α}
variable {plan : Plan ι α}
variable {shown : ι → List α}
variable {owner : ι → Option ι}
variable {made : List ι}
variable {mem : Memory ι α}
variable {i o : ι}

theorem Shared.read_short
    (hShared : Shared layout plan shown owner made mem)
    (hIn : i ∈ made)
    (hNone : owner i = none) :
    mem.read i = some (shown i) := by
  unfold Memory.read
  rw [hShared.short i hIn hNone]

/- Without room for a text, the owner has lost its buffer. -/
theorem Shared.read_moved
    (hShared : Shared layout plan shown owner made mem)
    (hIn : i ∈ made)
    (hOwner : owner i = some o)
    (hNot : ¬ Fits layout plan owner made o) :
    mem.read o = none := by
  rcases hShared.owners i hIn o hOwner with ⟨hMade, hSelf⟩
  rcases hShared.moved o hMade hSelf hNot with
    ⟨buffer, size, capacity, hThere, hGone⟩
  unfold Memory.read
  rw [hThere]
  dsimp only
  rw [hGone]
  rfl

/-
  As much is read as the object was given, but the bytes are
  those of the last text.
-/
theorem Shared.read_whole
    (hShared : Shared layout plan shown owner made mem)
    (hIn : i ∈ made)
    (hOwner : owner i = some o)
    (hFits : Fits layout plan owner made o) :
    ∃ text rest,
      lastText plan owner made o = some text ∧
      (shown i).length ≤
        (text ++ layout.null :: rest).length ∧
      mem.read i =
        some
          ((text ++ layout.null :: rest).take
            (shown i).length) := by
  rcases hShared.owners i hIn o hOwner with ⟨hMade, hSelf⟩
  rcases hShared.whole o hMade hSelf hFits with
    ⟨buffer, text, rest, hWhole⟩
  refine
    ⟨text, rest, hWhole.last, hWhole.size i hIn hOwner, ?_⟩
  unfold Memory.read
  rw [hWhole.object i hIn hOwner]
  dsimp only
  rw [hWhole.content]
  rfl

/- A text without a null character ends before the next one. -/
theorem take_eq_iff
    {null : α}
    {text rest wanted : List α}
    {n : Nat}
    (hPlain : null ∉ wanted)
    (hSize : n ≤ (text ++ null :: rest).length) :
    (text ++ null :: rest).take n = wanted ↔
      wanted.length = n ∧ wanted <+: text := by
  constructor
  · rintro rfl
    have hLength :
        ((text ++ null :: rest).take n).length = n := by
      rw [List.length_take]
      omega
    refine ⟨hLength, ?_⟩
    by_cases hInside : n ≤ text.length
    · rw [List.take_append_of_le_length hInside]
      exact List.take_prefix n text
    · refine absurd ?_ hPlain
      have hAt : text.length < n := by omega
      rw [List.take_append,
        List.take_of_length_le (Nat.le_of_lt hAt)]
      apply List.mem_append_right
      obtain ⟨k, hk⟩ : ∃ k, n - text.length = k + 1 :=
        ⟨n - text.length - 1, by omega⟩
      rw [hk, List.take_succ_cons]
      exact List.mem_cons_self
  · rintro ⟨rfl, more, rfl⟩
    rw [List.append_assoc, List.take_left]

/-
  Every object of interest reads as wanted if and only if each
  of them has what it needs.
-/
theorem run_read_iff
    (hTraced : Traced layout plan shown owner)
    (hOrdered : Ordered plan made)
    {live : ι → Prop}
    (hLive : ∀ i o, owner i = some o → live i → live o)
    {wanted : ι → List α}
    (hPlain : ∀ i, live i → layout.null ∉ wanted i) :
    (∀ i ∈ made,
      live i →
      (run layout plan made).read i = some (wanted i)) ↔
      ∀ i ∈ made,
        live i →
        ReadsAs layout plan shown owner made i
          (wanted i) := by
  have hShared := run_shared hTraced hOrdered
  constructor
  · intro hRead i hIn hOn
    have hMine := hRead i hIn hOn
    unfold ReadsAs
    cases hOwner : owner i with
    | none =>
        rw [hShared.read_short hIn hOwner] at hMine
        exact Option.some.inj hMine
    | some o =>
        have hFits : Fits layout plan owner made o := by
          by_contra hNot
          have hGone := hShared.read_moved hIn hOwner hNot
          rw [hRead o (hShared.owners i hIn o hOwner).1
            (hLive i o hOwner hOn)] at hGone
          cases hGone
        rcases hShared.read_whole hIn hOwner hFits with
          ⟨text, rest, hLast, hSize, hText⟩
        rw [hText] at hMine
        exact
          ⟨hFits, text, hLast,
            (take_eq_iff (hPlain i hOn) hSize).mp
              (Option.some.inj hMine)⟩
  · intro hGood i hIn hOn
    have hMine := hGood i hIn hOn
    unfold ReadsAs at hMine
    cases hOwner : owner i with
    | none =>
        rw [hOwner] at hMine
        rw [hShared.read_short hIn hOwner, hMine]
    | some o =>
        rw [hOwner] at hMine
        rcases hMine with ⟨hFits, last, hLast', hWanted⟩
        rcases hShared.read_whole hIn hOwner hFits with
          ⟨text, rest, hLast, hSize, hText⟩
        rw [hLast] at hLast'
        cases hLast'
        rw [hText]
        congr 1
        exact
          (take_eq_iff (hPlain i hOn) hSize).mpr hWanted

end SharedText
