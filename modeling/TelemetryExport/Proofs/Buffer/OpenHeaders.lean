import TelemetryExport.Proofs.Buffer.Storage

/-! # Open headers as a bounded list

To any sequence of operations, a stack of open headers gives the answers of a plain list that
takes no more than a fixed number of headers. A place is read only where there is one, and
what a closed header leaves in its place has no part in any later answer.
-/

namespace TelemetryExport

namespace SlotStack

variable {limit : Nat}

/-! ## Operations -/

/-- What is asked of the open headers. -/
inductive Operation where
  | push (slot : Slot)
  | pop
  | top
  | get (depth : Nat)
  | truncate (depth : Nat)
  | clear
  | innermostFirst
  | depth
  | isEmpty
  deriving DecidableEq, Repr

/-- What an operation gives back. -/
inductive Answer where
  | done
  | refused (fault : EncodeError)
  | header (found : Option Slot)
  | headers (found : List Slot)
  | count (depth : Nat)
  | truth (holds : Bool)
  deriving DecidableEq, Repr

def perform : Operation → SlotStack limit → Answer × SlotStack limit
  | .push slot, stack =>
      match stack.push slot with
      | .ok pushed => (.done, pushed)
      | .error fault => (.refused fault, stack)
  | .pop, stack => (.header stack.pop.1, stack.pop.2)
  | .top, stack => (.header stack.top?, stack)
  | .get depth, stack => (.header (stack.get? depth), stack)
  | .truncate depth, stack => (.done, stack.truncate depth)
  | .clear, stack => (.done, stack.clear)
  | .innermostFirst, stack => (.headers stack.innermostFirst, stack)
  | .depth, stack => (.count stack.depth, stack)
  | .isEmpty, stack => (.truth stack.isEmpty, stack)

/-- An operation on a list of headers, outermost first, that takes at most `limit` of them. -/
def performOnList (limit : Nat) : Operation → List Slot → Answer × List Slot
  | .push slot, slots =>
      if slots.length < limit then (.done, slots ++ [slot])
      else (.refused (.nestingTooDeep limit), slots)
  | .pop, slots => (.header slots.getLast?, slots.dropLast)
  | .top, slots => (.header slots.getLast?, slots)
  | .get depth, slots => (.header slots[depth]?, slots)
  | .truncate depth, slots => (.done, slots.take depth)
  | .clear, _ => (.done, [])
  | .innermostFirst, slots => (.headers slots.reverse, slots)
  | .depth, slots => (.count slots.length, slots)
  | .isEmpty, slots => (.truth slots.isEmpty, slots)

/-- The answers to operations one after another, and the state that they leave. -/
def performAll {σ : Type} (perform : Operation → σ → Answer × σ) (operations : List Operation) :
    σ → List Answer × σ :=
  operations.mapM (m := StateM σ) perform

/-- The stack that operations leave, where no header was open before them. -/
def reached (limit : Nat) (operations : List Operation) : SlotStack limit :=
  (performAll perform operations empty).2

/-- Each place that is read or written is one of the stack's. -/
structure StaysInRange (stack : SlotStack limit) : Prop where
  /-- There is a place for every open header. -/
  length_eq : stack.toList.length = stack.depth
  top : 0 < stack.depth → ∃ hplace : stack.depth - 1 < limit,
    stack.top? = some stack.places[stack.depth - 1]
  get : ∀ depth < stack.depth, ∃ hplace : depth < limit,
    stack.get? depth = some stack.places[depth]
  push : ∀ slot pushed, stack.push slot = .ok pushed → ∃ hplace : stack.depth < limit,
    pushed.places = stack.places.set stack.depth slot hplace

/-- From no open headers on, operations do to a stack what they do to a list of at most
`limit` headers. -/
structure BehavesAsList (limit : Nat) (operations : List Operation) : Prop where
  answers_eq : (performAll perform operations (empty : SlotStack limit)).1 =
    (performAll (performOnList limit) operations []).1
  toList_eq : (reached limit operations).toList =
    (performAll (performOnList limit) operations []).2
  length_le : (performAll (performOnList limit) operations []).2.length ≤ limit
  inRange : (reached limit operations).StaysInRange
  /-- Whatever stands in the places past the open headers, no later answer shows it. -/
  hides : ∀ places : Vector Slot limit, (∀ index < (reached limit operations).depth,
      places[index]? = (reached limit operations).places[index]?) →
    ∀ later, (performAll perform later { reached limit operations with places }).1 =
      (performAll perform later (reached limit operations)).1

/-! ## One operation -/

theorem map_perform (operation : Operation) (stack : SlotStack limit) :
    Prod.map id toList (perform operation stack) =
      performOnList limit operation stack.toList := by
  cases operation with
  | push slot =>
      rw [perform, performOnList, length_toList]
      by_cases hdepth : stack.depth < limit
      · obtain ⟨pushed, hpush, hlist⟩ := toList_push slot hdepth
        rw [hpush, if_pos hdepth, ← hlist]
        rfl
      · rw [push_of_le slot (Nat.le_of_not_lt hdepth), if_neg hdepth]
        rfl
  | pop =>
      rw [perform, performOnList, getLast?_toList, ← toList_pop]
      rfl
  | top =>
      rw [perform, performOnList, getLast?_toList]
      rfl
  | get depth =>
      rw [perform, performOnList, getElem?_toList]
      rfl
  | truncate depth =>
      rw [perform, performOnList, ← toList_truncate]
      rfl
  | clear =>
      rw [perform, performOnList, ← toList_clear stack]
      rfl
  | innermostFirst => rfl
  | depth =>
      rw [perform, performOnList, length_toList]
      rfl
  | isEmpty =>
      have hempty : stack.toList.isEmpty = stack.isEmpty := by
        rw [isEmpty, ← length_toList]
        cases stack.toList with
        | nil => rfl
        | cons slot deeper => rfl
      rw [perform, performOnList, hempty]
      rfl

/-- No operation makes the list longer than its limit. -/
theorem length_performOnList_le (operation : Operation) {slots : List Slot}
    (hlength : slots.length ≤ limit) :
    (performOnList limit operation slots).2.length ≤ limit := by
  cases operation with
  | push slot =>
      rw [performOnList]
      split
      next hroom =>
        rw [List.length_append, List.length_singleton]
        exact hroom
      next => exact hlength
  | pop =>
      rw [performOnList, List.length_dropLast]
      omega
  | truncate depth => exact Nat.le_trans (List.length_take_le' ..) hlength
  | clear => exact Nat.zero_le limit
  | _ => exact hlength

theorem staysInRange (stack : SlotStack limit) : stack.StaysInRange where
  length_eq := stack.length_toList
  top := by
    intro hdepth
    have hplace : stack.depth - 1 < limit := by
      have hlimit := stack.depth_le
      omega
    refine ⟨hplace, ?_⟩
    rw [top?, if_neg (Nat.ne_of_gt hdepth), Vector.getElem?_eq_getElem hplace]
  get := by
    intro depth hdepth
    have hplace : depth < limit := Nat.lt_of_lt_of_le hdepth stack.depth_le
    refine ⟨hplace, ?_⟩
    rw [get?, if_pos hdepth, Vector.getElem?_eq_getElem hplace]
  push := by
    intro slot pushed hpush
    rw [push] at hpush
    split at hpush
    next hplace =>
      cases hpush
      exact ⟨hplace, rfl⟩
    next => cases hpush

/-! ## Any operations -/

theorem performAll_cons {σ : Type} (perform : Operation → σ → Answer × σ) (operation : Operation)
    (rest : List Operation) (state : σ) :
    performAll perform (operation :: rest) state =
      ((perform operation state).1 :: (performAll perform rest (perform operation state).2).1,
        (performAll perform rest (perform operation state).2).2) := by
  rw [performAll, List.mapM_cons]
  rfl

theorem map_performAll (operations : List Operation) (stack : SlotStack limit) :
    Prod.map id toList (performAll perform operations stack) =
      performAll (performOnList limit) operations stack.toList := by
  induction operations generalizing stack with
  | nil => rfl
  | cons operation rest ih =>
      -- The rest starts from what the operation leaves, and the list has kept up with that.
      rw [performAll_cons, performAll_cons, ← map_perform, Prod.map_fst, Prod.map_snd, ← ih]
      rfl

theorem length_performAllOnList_le (operations : List Operation) {slots : List Slot}
    (hlength : slots.length ≤ limit) :
    (performAll (performOnList limit) operations slots).2.length ≤ limit := by
  induction operations generalizing slots with
  | nil => exact hlength
  | cons operation rest ih =>
      rw [performAll_cons]
      exact ih (length_performOnList_le operation hlength)

/-- Only the open headers have a part in the answers. -/
theorem fst_performAll_congr {stack other : SlotStack limit} (hlist : stack.toList = other.toList)
    (operations : List Operation) :
    (performAll perform operations stack).1 = (performAll perform operations other).1 := by
  have hanswers := congrArg Prod.fst (map_performAll operations stack)
  rw [hlist, ← map_performAll] at hanswers
  exact hanswers

/-- What stands in the places past the open headers is no part of the list. -/
theorem toList_withPlaces {stack : SlotStack limit} {places : Vector Slot limit}
    (hplaces : ∀ index < stack.depth, places[index]? = stack.places[index]?) :
    { stack with places }.toList = stack.toList := by
  apply List.ext_getElem?
  intro index
  rw [getElem?_toList, getElem?_toList, get?, get?]
  split
  next hindex => exact hplaces index hindex
  next => rfl

theorem behavesAsList (limit : Nat) (operations : List Operation) :
    BehavesAsList limit operations := by
  have hrun := map_performAll operations (empty : SlotStack limit)
  rw [toList_empty] at hrun
  constructor
  case answers_eq => exact congrArg Prod.fst hrun
  case toList_eq => exact congrArg Prod.snd hrun
  case length_le => exact length_performAllOnList_le operations (Nat.zero_le limit)
  case inRange => exact staysInRange _
  case hides =>
    intro places hplaces later
    exact fst_performAll_congr (toList_withPlaces hplaces) later

example :
    let slot (start : Nat) : Slot := ⟨start, start + 4⟩
    (performAll perform [.push (slot 0), .push (slot 4), .push (slot 8), .innermostFirst,
      .truncate 1, .get 1, .pop, .pop] (empty : SlotStack 2)).1 =
      [.done, .done, .refused (.nestingTooDeep 2), .headers [slot 4, slot 0],
        .done, .header none, .header (some (slot 0)), .header none] := by
  decide

end SlotStack

end TelemetryExport
