import Mathlib.Logic.Function.Basic
import Mathlib.Logic.Relation
import Mathlib.Order.Basic

/-!
# Locks that are taken in an order

Threads run structured code that takes locks and gives them back in nested blocks, as
`with lock:` does. A lock may be re-entrant: the thread that holds it may take it again.

Each lock has a rank. Code is ordered if every lock it takes ranks above the locks that
are held around it, or is one of them and re-entrant.

* `Code.Ordered`: a condition on the text of the code.
* `reachable_ordered`: in every interleaving of ordered code, what a thread waits for
  ranks above what it holds.
* `no_cycle`: no threads wait in a cycle, each for a lock that the next one holds.
-/

namespace Locks

variable {L ι α : Type*}

/-! ## Code -/

/-- What a piece of code does with locks. -/
inductive Code (L : Type*) where
  /-- It takes none. -/
  | pass
  /-- `with lock: body`. -/
  | hold (lock : L) (body : Code L)
  | seq (first second : Code L)
  | either (left right : Code L)
  | loop (body : Code L)

/-- What a thread still has to do, innermost first. -/
inductive Frame (L : Type*) where
  | run (code : Code L)
  | release (lock : L)

/-- The locks that a thread holds, once for each time it has taken them. -/
def held : List (Frame L) → List L
  | [] => []
  | .run _ :: stack => held stack
  | .release lock :: stack => lock :: held stack

/-- One step of a thread, with the lock that it takes, if any. -/
inductive Moves : List (Frame L) → Option L → List (Frame L) → Prop
  | take {lock : L} {body : Code L} {stack : List (Frame L)} :
      Moves (.run (.hold lock body) :: stack) (some lock) (.run body :: .release lock :: stack)
  | seq {first second : Code L} {stack : List (Frame L)} :
      Moves (.run (.seq first second) :: stack) none (.run first :: .run second :: stack)
  | left {left right : Code L} {stack : List (Frame L)} :
      Moves (.run (.either left right) :: stack) none (.run left :: stack)
  | right {left right : Code L} {stack : List (Frame L)} :
      Moves (.run (.either left right) :: stack) none (.run right :: stack)
  | again {body : Code L} {stack : List (Frame L)} :
      Moves (.run (.loop body) :: stack) none (.run body :: .run (.loop body) :: stack)
  /-- Code that is done, a loop that ends, or what a return or an exception leaves out. -/
  | leave {code : Code L} {stack : List (Frame L)} : Moves (.run code :: stack) none stack
  | release {lock : L} {stack : List (Frame L)} : Moves (.release lock :: stack) none stack

/-! ## Threads -/

/-- What each thread still has to do; `[]` for one that runs nothing. -/
abbrev Threads (ι L : Type*) := ι → List (Frame L)

section Threads

variable (reentrant : L → Prop) (methods : Code L → Prop)

/-- The thread may take the lock. -/
def Free (threads : Threads ι L) (i : ι) (lock : L) : Prop :=
  ∀ j, lock ∈ held (threads j) → j = i ∧ reentrant lock

/-- A thread starts to run a method, or takes a step in one. -/
inductive Step [DecidableEq ι] (threads : Threads ι L) : Threads ι L → Prop
  | call {i : ι} {code : Code L} : threads i = [] → methods code →
      Step threads (Function.update threads i [.run code])
  | move {i : ι} {taken : Option L} {stack : List (Frame L)} :
      Moves (threads i) taken stack → (∀ lock ∈ taken, Free reentrant threads i lock) →
      Step threads (Function.update threads i stack)

/-- The states that are reached from one where nothing runs. -/
def Reachable [DecidableEq ι] (threads : Threads ι L) : Prop :=
  Relation.ReflTransGen (Step reentrant methods) (fun _ => []) threads

/-- The next thing that the thread does is to take the lock. -/
def WaitsAt (threads : Threads ι L) (i : ι) (lock : L) : Prop :=
  ∃ body stack, threads i = .run (.hold lock body) :: stack

/-- Thread `i` waits for a lock that thread `j` holds. -/
def WaitsFor (threads : Threads ι L) (i j : ι) : Prop :=
  ∃ lock, WaitsAt threads i lock ∧ lock ∈ held (threads j) ∧ ¬(j = i ∧ reentrant lock)

end Threads

/-! ## Ordered code -/

section Ordered

variable [Preorder α] (rank : L → α) (reentrant : L → Prop)

/-- A lock may be taken while the others are held. -/
def Above (around : List L) (lock : L) : Prop :=
  ∀ outer ∈ around, rank outer < rank lock ∨ outer = lock ∧ reentrant lock

/-- Every lock that the code takes is above the ones that are held around it. -/
def Code.Ordered : List L → Code L → Prop
  | _, .pass => True
  | around, .hold lock body => Above rank reentrant around lock ∧ Ordered (lock :: around) body
  | around, .seq first second => Ordered around first ∧ Ordered around second
  | around, .either left right => Ordered around left ∧ Ordered around right
  | around, .loop body => Ordered around body

/-- All the code that a thread still has to run is ordered. -/
def StackOrdered : List (Frame L) → Prop
  | [] => True
  | .run code :: stack => code.Ordered rank reentrant (held stack) ∧ StackOrdered stack
  | .release _ :: stack => StackOrdered stack

variable {rank reentrant} {stack stack' : List (Frame L)} {taken : Option L} {lock : L}

theorem StackOrdered.moves (h : StackOrdered rank reentrant stack) (hmoves : Moves stack taken stack') :
    StackOrdered rank reentrant stack' := by
  cases hmoves with
  | take => exact ⟨h.1.2, h.2⟩
  | seq => exact ⟨h.1.1, h.1.2, h.2⟩
  | left => exact ⟨h.1.1, h.2⟩
  | right => exact ⟨h.1.2, h.2⟩
  | again => exact ⟨h.1, h⟩
  | leave => exact h.2
  | release => exact h

/-- A step gives locks back, or takes the one that it says. -/
theorem mem_held_of_moves (hmoves : Moves stack taken stack') (h : lock ∈ held stack') :
    lock ∈ held stack ∨ lock ∈ taken := by
  cases hmoves with
  | take =>
    rcases List.mem_cons.mp h with rfl | h
    · exact .inr rfl
    · exact .inl h
  | seq => exact .inl h
  | left => exact .inl h
  | right => exact .inl h
  | again => exact .inl h
  | leave => exact .inl h
  | release => exact .inl (List.mem_cons_of_mem _ h)

/-! ## Every interleaving -/

variable (rank reentrant) in
/-- The invariant: the code ahead is ordered, and a lock has one holder. -/
structure Inv (threads : Threads ι L) : Prop where
  ordered : ∀ i, StackOrdered rank reentrant (threads i)
  exclusive : ∀ i j lock, lock ∈ held (threads i) → lock ∈ held (threads j) → i = j

variable {methods : Code L → Prop} {threads threads' : Threads ι L} {i j : ι}

theorem Inv.update [DecidableEq ι] (h : Inv rank reentrant threads)
    (hordered : StackOrdered rank reentrant stack)
    (hheld : ∀ lock ∈ held stack, ∀ j, lock ∈ held (threads j) → j = i) :
    Inv rank reentrant (Function.update threads i stack) := by
  refine ⟨fun j => ?_, fun j k lock hj hk => ?_⟩
  · by_cases hji : j = i
    · rw [hji, Function.update_self]
      exact hordered
    · rw [Function.update_of_ne hji]
      exact h.ordered j
  · by_cases hji : j = i
    · by_cases hki : k = i
      · rw [hji, hki]
      · rw [hji, Function.update_self] at hj
        rw [Function.update_of_ne hki] at hk
        exact absurd (hheld lock hj k hk) hki
    · rw [Function.update_of_ne hji] at hj
      by_cases hki : k = i
      · rw [hki, Function.update_self] at hk
        exact absurd (hheld lock hk j hj) hji
      · rw [Function.update_of_ne hki] at hk
        exact h.exclusive j k lock hj hk

theorem Inv.step [DecidableEq ι] (h : Inv rank reentrant threads)
    (hmethods : ∀ code, methods code → code.Ordered rank reentrant [])
    (hstep : Step reentrant methods threads threads') : Inv rank reentrant threads' := by
  cases hstep with
  | call _ hmethod =>
    exact h.update ⟨hmethods _ hmethod, True.intro⟩ fun _ hlock => absurd hlock List.not_mem_nil
  | @move i taken stack hmoves hfree =>
    refine h.update ((h.ordered i).moves hmoves) fun lock hlock j hj => ?_
    rcases mem_held_of_moves hmoves hlock with hi | htaken
    · exact h.exclusive j i lock hj hi
    · exact (hfree lock htaken j hj).1

/-- Ordered methods keep the invariant, whatever the interleaving. -/
theorem reachable_ordered [DecidableEq ι]
    (hmethods : ∀ code, methods code → code.Ordered rank reentrant [])
    (h : Reachable reentrant methods threads) : Inv rank reentrant threads := by
  induction h with
  | refl =>
    exact ⟨fun _ => True.intro, fun _ _ _ hlock => absurd hlock List.not_mem_nil⟩
  | tail _ hstep ih => exact ih.step hmethods hstep

/-- What a thread waits for is above what it holds. -/
theorem Inv.above (h : Inv rank reentrant threads) (hwaits : WaitsAt threads i lock) :
    Above rank reentrant (held (threads i)) lock := by
  obtain ⟨body, stack, hstack⟩ := hwaits
  have hordered := h.ordered i
  rw [hstack] at hordered ⊢
  exact hordered.1.1

/-- Along a chain of waiting threads the locks go up. -/
theorem Inv.chain (h : Inv rank reentrant threads)
    (hchain : Relation.TransGen (WaitsFor reentrant threads) i j) :
    ∃ first last k, WaitsAt threads i first ∧ first ∈ held (threads k) ∧
      ¬(k = i ∧ reentrant first) ∧ last ∈ held (threads j) ∧
      (last = first ∨ rank first < rank last) := by
  induction hchain with
  | single hwaits =>
    obtain ⟨lock, hat, hheld, hother⟩ := hwaits
    exact ⟨lock, lock, _, hat, hheld, hother, hheld, .inl rfl⟩
  | @tail j k _ hwaits ih =>
    obtain ⟨first, last, m, hat, hm, hother, hlast, hle⟩ := ih
    obtain ⟨lock, hat', hheld, hother'⟩ := hwaits
    have hlt : rank last < rank lock := by
      rcases h.above hat' last hlast with hlt | ⟨rfl, hreentrant⟩
      · exact hlt
      · -- the thread holds the lock itself, so the next one does not
        exact absurd ⟨h.exclusive k j last hheld hlast, hreentrant⟩ hother'
    refine ⟨first, lock, m, hat, hm, hother, hheld, .inr ?_⟩
    rcases hle with rfl | hle
    · exact hlt
    · exact hle.trans hlt

/-- No threads wait for each other in a cycle. -/
theorem Inv.no_cycle (h : Inv rank reentrant threads) :
    ¬Relation.TransGen (WaitsFor reentrant threads) i i := by
  intro hcycle
  obtain ⟨first, last, k, hat, hk, hother, hlast, hle⟩ := h.chain hcycle
  rcases h.above hat last hlast with hlt | ⟨rfl, hreentrant⟩
  · rcases hle with rfl | hle
    · exact lt_irrefl _ hlt
    · exact lt_irrefl _ (hlt.trans hle)
  · exact hother ⟨h.exclusive k i last hk hlast, hreentrant⟩

end Ordered

end Locks
