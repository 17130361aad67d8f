import Mathlib.Data.List.Chain
import Mathlib.Data.List.Nodup
import Mathlib.Logic.Function.Basic

/-!
# Doubly linked cells

A cell that is taken out of a doubly linked list keeps its own two links, so it can
be put back with nothing else known, as long as cells are put back in the reverse
order.
-/

namespace MultiRaft

universe u

/-- The two link fields of all cells. -/
structure Links (Ptr : Type u) where
  next : Ptr → Option Ptr
  prev : Ptr → Option Ptr

namespace Links

variable {Ptr : Type u}

@[ext]
theorem ext {one two : Links Ptr} (next : one.next = two.next) (prev : one.prev = two.prev) :
    one = two := by
  cases one
  cases two
  cases next
  cases prev
  rfl

section Writes

variable [DecidableEq Ptr]

def setNext (links : Links Ptr) (cell : Ptr) (value : Option Ptr) : Links Ptr :=
  { links with next := Function.update links.next cell value }

def setPrev (links : Links Ptr) (cell : Ptr) (value : Option Ptr) : Links Ptr :=
  { links with prev := Function.update links.prev cell value }

@[simp]
theorem setNext_prev (links : Links Ptr) (cell : Ptr) (value : Option Ptr) :
    (links.setNext cell value).prev = links.prev := rfl

/-- The neighbours of the cell point to each other. -/
def unlink (links : Links Ptr) (cell : Ptr) : Option (Links Ptr) := do
  let before ← links.prev cell
  let links := links.setNext before (links.next cell)
  match links.next cell with
  | some after => some (links.setPrev after (links.prev cell))
  | none => some links

/-- The neighbours that the cell remembers point to it again. -/
def relink (links : Links Ptr) (cell : Ptr) : Option (Links Ptr) := do
  let before ← links.prev cell
  let links := links.setNext before (some cell)
  match links.next cell with
  | some after => some (links.setPrev after (some cell))
  | none => some links

end Writes

/-- One cell follows another, seen from both. -/
def Follows (links : Links Ptr) (one two : Ptr) : Prop :=
  links.next one = some two ∧ links.prev two = some one

/-- The cells of a list, from its head to its last cell. -/
structure Linked (links : Links Ptr) (cells : List Ptr) : Prop where
  chain : cells.IsChain links.Follows
  last : ∀ cell ∈ cells.getLast?, links.next cell = none
  nodup : cells.Nodup

variable {links : Links Ptr} {front back : List Ptr} {before cell : Ptr}

theorem Linked.next (linked : links.Linked (front ++ cell :: back)) :
    links.next cell = back.head? := by
  cases back with
  | nil => exact linked.last cell (by simp)
  | cons after rest => exact (List.isChain_append_cons_cons.mp linked.chain).2.1.1

theorem Linked.prev (linked : links.Linked (front ++ before :: cell :: back)) :
    links.prev cell = some before :=
  (List.isChain_append_cons_cons.mp linked.chain).2.1.2

theorem linked_singleton (alone : links.next cell = none) : links.Linked [cell] where
  chain := List.isChain_singleton _
  last _ final := by
    cases Option.mem_some_iff.mp final
    exact alone
  nodup := List.nodup_singleton _

/-- The links of other cells do not matter. -/
theorem Linked.congr {cells : List Ptr} (linked : links.Linked cells) {others : Links Ptr}
    (next : ∀ cell ∈ cells, others.next cell = links.next cell)
    (prev : ∀ cell ∈ cells, others.prev cell = links.prev cell) : others.Linked cells where
  chain := linked.chain.imp_of_mem_imp fun one two first second follows =>
    ⟨(next one first).trans follows.1, (prev two second).trans follows.2⟩
  last cell final := (next cell (List.mem_of_mem_getLast? final)).trans (linked.last cell final)
  nodup := linked.nodup

/-- A new cell in front of the first one. -/
theorem Linked.cons [DecidableEq Ptr] (linked : links.Linked (cell :: back)) {fresh : Ptr}
    (unused : fresh ∉ cell :: back) :
    ((links.setPrev cell (some fresh)).setNext fresh (some cell)).Linked
      (fresh :: cell :: back) := by
  have other : ∀ {known}, known ∈ cell :: back → known ≠ fresh := by
    rintro known member rfl
    exact unused member
  have single := (List.nodup_cons.mp linked.nodup).1
  refine ⟨?_, ?_, List.nodup_cons.mpr ⟨unused, linked.nodup⟩⟩
  · refine List.isChain_cons_cons.mpr ⟨⟨?_, ?_⟩, ?_⟩
    · simp [setNext, setPrev]
    · simp [setNext, setPrev]
    · refine linked.chain.imp_of_mem_tail_imp ?_
      intro one two member later ⟨next, prev⟩
      refine ⟨?_, ?_⟩
      · simpa [setNext, setPrev, Function.update_of_ne (other member)] using next
      · have apart : two ≠ cell := fun same => single (same ▸ later)
        simpa [setNext, setPrev, Function.update_of_ne apart] using prev
  · intro known final
    have member : known ∈ cell :: back := by
      rw [List.getLast?_cons_cons] at final
      exact List.mem_of_mem_getLast? final
    have ends := linked.last known (by rwa [List.getLast?_cons_cons] at final)
    simpa [setNext, setPrev, Function.update_of_ne (other member)] using ends

section Unlink

/-- What the cells in front of the gap say does not change. -/
theorem Linked.front_chain (linked : links.Linked (front ++ before :: cell :: back))
    {less : Links Ptr} (next : ∀ other ≠ before, less.next other = links.next other)
    (prev : ∀ other ∉ back, less.prev other = links.prev other) :
    (front ++ [before]).IsChain less.Follows := by
  have nodup := linked.nodup
  rw [List.nodup_append, List.nodup_cons, List.nodup_cons] at nodup
  obtain ⟨-, ⟨notBefore, -, -⟩, apart⟩ := nodup
  obtain ⟨chain, -, meets⟩ := List.isChain_append.mp
    (List.isChain_append_cons_cons.mp linked.chain).1
  have outside : ∀ other ∈ front, other ∉ back := fun other member inBack =>
    apart other member other (List.mem_cons_of_mem _ (List.mem_cons_of_mem _ inBack)) rfl
  have unlike : ∀ other ∈ front, other ≠ before := fun other member =>
    apart other member before List.mem_cons_self
  refine List.isChain_append.mpr ⟨?_, List.isChain_singleton _, ?_⟩
  · refine chain.imp_of_mem_imp fun one two first second follows => ?_
    exact ⟨(next one (unlike one first)).trans follows.1,
      (prev two (outside two second)).trans follows.2⟩
  · intro one final two first
    have follows := meets one final two first
    cases Option.mem_some_iff.mp first
    refine ⟨(next one (unlike one (List.mem_of_mem_getLast? final))).trans follows.1,
      (prev before ?_).trans follows.2⟩
    exact fun inBack => notBefore (List.mem_cons_of_mem _ inBack)

/-- Taking a cell out is undone by putting it back, and the cells that are left are
linked. -/
theorem Linked.unlink [DecidableEq Ptr]
    (linked : links.Linked (front ++ before :: cell :: back)) :
    ∃ less, links.unlink cell = some less ∧ less.Linked (front ++ before :: back) ∧
      less.relink cell = some links ∧ less.next cell = links.next cell ∧
      less.prev cell = links.prev cell := by
  have ahead : links.next before = some cell :=
    (List.isChain_append_cons_cons.mp linked.chain).2.1.1
  have behind : links.prev cell = some before := linked.prev
  have split : front ++ before :: cell :: back = (front ++ [before]) ++ cell :: back := by simp
  have follow : links.next cell = back.head? := (split ▸ linked).next
  have shorter : (front ++ before :: back).Nodup :=
    linked.nodup.sublist (List.Sublist.append_left ((List.sublist_cons_self _ _).cons_cons _) _)
  have nodup := linked.nodup
  rw [List.nodup_append, List.nodup_cons, List.nodup_cons] at nodup
  obtain ⟨-, ⟨notBefore, notCell, nodupBack⟩, -⟩ := nodup
  have unlike : cell ≠ before := fun same => notBefore (same ▸ List.mem_cons_self)
  cases back with
  | nil =>
      rw [List.head?_nil] at follow
      have taken : links.unlink cell = some (links.setNext before none) := by
        simp [Links.unlink, behind, setNext, follow, Function.update_of_ne unlike]
      refine ⟨_, taken, ⟨?_, ?_, shorter⟩, ?_, Function.update_of_ne unlike _ _, rfl⟩
      · exact linked.front_chain (fun other apart => Function.update_of_ne apart _ _)
          fun _ _ => rfl
      · intro final member
        rw [List.getLast?_append, List.getLast?_singleton, Option.some_or] at member
        cases Option.mem_some_iff.mp member
        exact Function.update_self _ _ _
      · simp [Links.relink, setNext, behind, follow, Function.update_of_ne unlike, ← ahead]
  | cons after rest =>
      rw [List.head?_cons] at follow
      have apart : cell ≠ after := fun same => notCell (same ▸ List.mem_cons_self)
      have outside : before ∉ after :: rest := fun member =>
        notBefore (List.mem_cons_of_mem _ member)
      have taken : links.unlink cell =
          some ((links.setNext before (some after)).setPrev after (some before)) := by
        simp [Links.unlink, behind, setNext, setPrev, follow, Function.update_of_ne unlike]
      have back : links.prev after = some cell := (split ▸ linked).prev
      refine ⟨_, taken, ⟨?_, ?_, shorter⟩, ?_, Function.update_of_ne unlike _ _,
        Function.update_of_ne apart _ _⟩
      · rw [List.isChain_append_cons_cons]
        refine ⟨?_, ⟨Function.update_self _ _ _, Function.update_self _ _ _⟩, ?_⟩
        · refine linked.front_chain (fun other apart => Function.update_of_ne apart _ _) ?_
          intro other absent
          have unlike : other ≠ after := fun same => absent (same ▸ List.mem_cons_self)
          exact Function.update_of_ne unlike _ _
        · have chain := (List.isChain_append_cons_cons.mp (split ▸ linked).chain).2.2
          refine chain.imp_of_mem_tail_imp fun one two member later follows => ?_
          have first : one ≠ before := fun same => outside (same ▸ member)
          have second : two ≠ after := fun same =>
            (List.nodup_cons.mp nodupBack).1 (same ▸ later)
          exact ⟨(Function.update_of_ne first _ _).trans follows.1,
            (Function.update_of_ne second _ _).trans follows.2⟩
      · intro final member
        have later : final ∈ (after :: rest).getLast? := by
          simpa [List.getLast?_append, List.getLast?_cons] using member
        have ends := linked.last final
          (by simpa [List.getLast?_append, List.getLast?_cons] using later)
        have first : final ≠ before := fun same =>
          outside (same ▸ List.mem_of_mem_getLast? later)
        exact (Function.update_of_ne first _ _).trans ends
      · have restored : Function.update links.prev after (some cell) = links.prev := by
          rw [← back, Function.update_eq_self]
        have resumed : Function.update links.next before (some cell) = links.next := by
          rw [← ahead, Function.update_eq_self]
        simp [Links.relink, setNext, setPrev, behind, follow, Function.update_of_ne apart,
          resumed, restored]

end Unlink

end Links

end MultiRaft
