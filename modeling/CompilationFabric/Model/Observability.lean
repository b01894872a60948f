import CompilationFabric.Model.Json
import Mathlib.Data.List.Induction

/-!
# Observability

`Observability.cpp`: counters under their names, and the most recent events.  Each operation is
one critical section of the object's own mutex.  A clock reading is an argument.
-/

set_option autoImplicit false

namespace CompilationFabric.Model

/-- SOURCE: Observability.hpp:13-17 -/
structure ObservedEvent where
  timeMs : Int64 := 0
  type : Bytes
  data : Json := .null

/-- SOURCE: Observability.hpp:19-51 -/
structure Observability where
  counters : Std.ExtTreeMap Bytes Int64 compare := ∅
  events : List ObservedEvent := []
  maxEvents : ℕ := 4096

namespace Observability

/-- SOURCE: Observability.cpp:9-12 -/
def count (o : Observability) (key : Bytes) (delta : Int64) : Observability :=
  { o with counters := o.counters.insert key (o.counters.getD key 0 + delta) }

/-- SOURCE: Observability.cpp:13-16 -/
def set (o : Observability) (key : Bytes) (value : Int64) : Observability :=
  { o with counters := o.counters.insert key value }

/-- SOURCE: Observability.cpp:17-21 -/
def get (o : Observability) (key : Bytes) : Int64 := o.counters.getD key 0

/-- `while (events_.size() > maxEvents_) events_.pop_front();` -/
def popFront (maxEvents : ℕ) : List ObservedEvent → List ObservedEvent
  | [] => []
  | e :: es => if maxEvents < (e :: es).length then popFront maxEvents es else e :: es

/-- SOURCE: Observability.cpp:22-27 -/
def recordEvent (o : Observability) (now : Int64) (type : Bytes) (data : Json) : Observability :=
  { o with events := popFront o.maxEvents (o.events ++ [{ timeMs := now, type, data }]) }

/-- SOURCE: Observability.cpp:55-61 -/
def recentEvents (o : Observability) (limit : ℕ) : List ObservedEvent :=
  let start := if o.events.length > limit then o.events.length - limit else 0
  o.events.drop start

/-! ## What the operations do -/

variable {o : Observability} {key other : Bytes} {delta value : Int64}

/-- Counting adds to one counter.
SOURCE: Observability.cpp:9-21 -/
theorem get_count :
    (o.count key delta).get other = if other = key then o.get key + delta else o.get other := by
  unfold get count
  rw [Std.ExtTreeMap.getD_insert]
  by_cases h : other = key
  · subst h
    simp
  · have hne : compare key other ≠ .eq := fun heq =>
      h (Std.LawfulEqOrd.compare_eq_iff_eq.mp heq).symm
    rw [if_neg hne, if_neg h]

/-- Setting sets one counter. -/
theorem get_set : (o.set key value).get other = if other = key then value else o.get other := by
  unfold get set
  rw [Std.ExtTreeMap.getD_insert]
  by_cases h : other = key
  · subst h
    simp
  · have hne : compare key other ≠ .eq := fun heq =>
      h (Std.LawfulEqOrd.compare_eq_iff_eq.mp heq).symm
    rw [if_neg hne, if_neg h]

/-- An event leaves the counters alone. -/
@[simp] theorem get_recordEvent {now : Int64} {type : Bytes} {data : Json} :
    (o.recordEvent now type data).get other = o.get other := rfl

/-- The last events stay. -/
theorem popFront_eq (n : ℕ) (es : List ObservedEvent) : popFront n es = es.drop (es.length - n) := by
  induction es with
  | nil => simp [popFront]
  | cons e es ih =>
      unfold popFront
      rw [List.length_cons] at *
      split
      · next h => rw [ih, Nat.succ_sub (Nat.lt_succ_iff.mp h), List.drop_succ_cons]
      · next h => rw [Nat.sub_eq_zero_of_le (not_lt.mp h), List.drop_zero]

/-- The events recorded one after the other. -/
def recordAll (n : ℕ) (es : List ObservedEvent) : Observability :=
  es.foldl (fun o e => o.recordEvent e.timeMs e.type e.data) { maxEvents := n }

/-- INTERNAL: the events that are kept, by induction on what has been recorded. -/
theorem events_recordAll (n : ℕ) (es : List ObservedEvent) :
    (recordAll n es).events = es.drop (es.length - n) ∧ (recordAll n es).maxEvents = n := by
  induction es using List.reverseRecOn with
  | nil => simp [recordAll]
  | append_singleton es e ih =>
      have hstep : recordAll n (es ++ [e]) =
          (recordAll n es).recordEvent e.timeMs e.type e.data := by
        rw [recordAll, List.foldl_append]
        rfl
      rw [hstep]
      refine ⟨?_, ih.2⟩
      change popFront _ (_ ++ [e]) = _
      rw [ih.1, ih.2, popFront_eq, ← List.drop_append_of_le_length (Nat.sub_le _ _), List.drop_drop]
      congr 1
      simp only [List.length_drop, List.length_append, List.length_singleton]
      omega

/-- Whatever has been recorded, the last of it can be read, up to the bound.
SOURCE: Observability.cpp:22-27, 55-61 -/
theorem recentEvents_recordAll (n limit : ℕ) (es : List ObservedEvent) :
    (recordAll n es).recentEvents limit = es.drop (es.length - min limit n) := by
  unfold recentEvents
  dsimp only
  rw [(events_recordAll n es).1, List.length_drop, List.drop_drop]
  congr 1
  split <;> omega

end Observability

end CompilationFabric.Model
