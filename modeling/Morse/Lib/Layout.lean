import Morse.Lib.Octets
import Morse.Lib.Segment

/-!
# Headers in front, bodies behind

A file is laid out in two areas that grow together: a table of headers of one width, and behind
it the bodies, each where the one before ends.  What is stored for one part changes neither the
parts before it nor the space of those after it.
-/

namespace Lib

universe u

variable {α : Type u}

theorem segment_overwrite_apart {items : List α}
    (apart : position + items.length ≤ start ∨ start + count ≤ position) :
    segment (overwrite buffer position items) start count = segment buffer start count := by
  apply segment_congr
  intro index above below
  rw [overwrite]
  split
  · rfl
  · rw [List.getElem?_eq_none_iff.mpr (by omega), Option.getD_none]

theorem overwrite_apart {items : List α}
    (apart : position + items.length ≤ index ∨ index < position) :
    overwrite buffer position items index = buffer index := by
  rw [overwrite]
  split
  · rfl
  · rw [List.getElem?_eq_none_iff.mpr (by omega), Option.getD_none]

theorem segment_inside {buffer : Nat → α} {position count start part : Nat}
    (inside : start + part ≤ count) :
    segment buffer (position + start) part =
      ((segment buffer position count).drop start).take part := by
  obtain ⟨rest, rfl⟩ := Nat.exists_eq_add_of_le inside
  rw [segment_add, segment_add, List.append_assoc,
    List.drop_left' (length_segment _ _ _), List.take_left' (length_segment _ _ _)]

theorem segment_blank {blank : α}
    (empty : ∀ index, position ≤ index → index < position + count → buffer index = blank) :
    segment buffer position count = List.replicate count blank := by
  rw [List.eq_replicate_iff]
  refine ⟨by simp, fun octet inside => ?_⟩
  obtain ⟨index, within, rfl⟩ := List.mem_map.mp inside
  obtain ⟨above, below⟩ := List.mem_range'_1.mp within
  exact empty index above below

/-- What is laid out for one part: a header, which tells where the body is, and the body. -/
structure Piece (α : Type u) where
  /-- The header of a body at some place. -/
  header : Nat → List α
  /-- The body. -/
  body : List α

/-- The length of some bodies. -/
def bodies (parts : List (Piece α)) : Nat := (parts.map fun part => part.body.length).sum

@[simp] theorem bodies_nil : bodies ([] : List (Piece α)) = 0 := rfl

@[simp] theorem bodies_cons (part : Piece α) (rest : List (Piece α)) :
    bodies (part :: rest) = part.body.length + bodies rest := by
  rw [bodies, List.map_cons, List.sum_cons, ← bodies]

@[simp] theorem bodies_append (parts others : List (Piece α)) :
    bodies (parts ++ others) = bodies parts + bodies others := by
  rw [bodies, List.map_append, List.sum_append, ← bodies, ← bodies]

variable {width : Nat}

/-- The headers of some parts stand in a row from `slot` on, and their bodies from `start`
on. -/
def Laid (width : Nat) (memory : Nat → α) : Nat → Nat → List (Piece α) → Prop
  | _, _, [] => True
  | slot, start, part :: rest =>
    segment memory slot width = part.header start ∧
      segment memory start part.body.length = part.body ∧
      Laid width memory (slot + width) (start + part.body.length) rest

theorem Laid.congr {parts : List (Piece α)} (laid : Laid width memory slot start parts)
    (headers : ∀ index, slot ≤ index → index < slot + width * parts.length →
      other index = memory index)
    (behind : ∀ index, start ≤ index → index < start + bodies parts →
      other index = memory index) :
    Laid width other slot start parts := by
  induction parts generalizing slot start with
  | nil => trivial
  | cons part rest ih =>
    obtain ⟨header, body, others⟩ := laid
    rw [List.length_cons, Nat.mul_succ] at headers
    rw [bodies_cons] at behind
    refine ⟨?_, ?_, ih others ?_ ?_⟩
    · rw [← header]
      exact segment_congr fun index above below => headers index above (by omega)
    · refine Eq.trans (segment_congr fun index above below => ?_) body
      exact behind index above (by omega)
    · exact fun index above below => headers index (by omega) (by omega)
    · exact fun index above below => behind index (by omega) (by omega)

theorem laid_append {parts others : List (Piece α)} :
    Laid width memory slot start (parts ++ others) ↔
      Laid width memory slot start parts ∧
        Laid width memory (slot + width * parts.length) (start + bodies parts) others := by
  induction parts generalizing slot start with
  | nil => simp [Laid]
  | cons part rest ih =>
    rw [List.cons_append, Laid, Laid, ih, List.length_cons, bodies_cons,
      Nat.mul_succ, Nat.add_right_comm, ← Nat.add_assoc, ← Nat.add_assoc, and_assoc, and_assoc]

/-- From one memory to another some parts were laid out, and nothing else changed. -/
structure Lays (width : Nat) (before after : Nat → α) (slot start : Nat) (parts : List (Piece α)) :
    Prop where
  laid : Laid width after slot start parts
  kept : ∀ index, index < slot ∨ slot + width * parts.length ≤ index →
    index < start ∨ start + bodies parts ≤ index → after index = before index

/-- The two areas of some parts are still empty. -/
structure Vacant (width : Nat) (blank : α) (memory : Nat → α) (slot start : Nat)
    (parts : List (Piece α)) : Prop where
  /-- The table ends before the bodies. -/
  room : slot + width * parts.length ≤ start
  headers : ∀ index, slot ≤ index → index < slot + width * parts.length → memory index = blank
  behind : ∀ index, start ≤ index → index < start + bodies parts → memory index = blank

theorem Lays.nil (memory : Nat → α) (slot start : Nat) : Lays width memory memory slot start [] :=
  ⟨trivial, fun _ _ _ => rfl⟩

theorem Vacant.left {parts others : List (Piece α)}
    (vacant : Vacant width blank memory slot start (parts ++ others)) :
    Vacant width blank memory slot start parts := by
  obtain ⟨room, headers, behind⟩ := vacant
  rw [List.length_append, Nat.mul_add] at room headers
  rw [bodies_append] at behind
  exact ⟨by omega, fun index above below => headers index above (by omega),
    fun index above below => behind index above (by omega)⟩

theorem Vacant.right {slot start : Nat} {parts others : List (Piece α)}
    (vacant : Vacant width blank before slot start (parts ++ others))
    (first : Lays width before middle slot start parts) :
    Vacant width blank middle (slot + width * parts.length) (start + bodies parts) others := by
  obtain ⟨room, headers, behind⟩ := vacant
  have kept := first.kept
  rw [List.length_append, Nat.mul_add] at room headers
  rw [bodies_append] at behind
  refine ⟨by omega, fun index above below => ?_, fun index above below => ?_⟩
  · rw [kept index (by omega) (by omega)]
    exact headers index (by omega) (by omega)
  · rw [kept index (by omega) (by omega)]
    exact behind index (by omega) (by omega)

theorem Vacant.head {rest : List (Piece α)}
    (vacant : Vacant width blank memory slot start (part :: rest)) :
    Vacant width blank memory slot start [part] :=
  @Vacant.left _ _ _ _ _ _ [part] rest vacant

theorem Vacant.tail {slot start : Nat} {part : Piece α} {rest : List (Piece α)}
    (vacant : Vacant width blank before slot start (part :: rest))
    (first : Lays width before middle slot start [part]) :
    Vacant width blank middle (slot + width) (start + part.body.length) rest := by
  have others := @Vacant.right _ _ _ _ _ _ _ [part] rest vacant first
  rwa [List.length_singleton, Nat.mul_one, bodies_cons, bodies_nil] at others

theorem Lays.cons {rest : List (Piece α)} (room : slot + width * (part :: rest).length ≤ start)
    (first : Lays width before middle slot start [part])
    (others : Lays width middle after (slot + width) (start + part.body.length) rest) :
    Lays width before after slot start (part :: rest) := by
  have kept := others.kept
  have unchanged := first.kept
  obtain ⟨header, body, -⟩ := first.laid
  simp only [List.length_cons, List.length_nil, Nat.mul_succ, bodies_cons, bodies_nil] at *
  refine ⟨⟨?_, ?_, others.laid⟩, fun index outside behind => ?_⟩
  · rw [← header]
    exact segment_congr fun index above below => kept index (by omega) (by omega)
  · refine Eq.trans (segment_congr fun index above below => ?_) body
    exact kept index (by omega) (by omega)
  · simp only [List.length_cons, Nat.mul_succ, bodies_cons] at outside behind
    rw [kept index (by omega) (by omega), unchanged index (by omega) (by omega)]

theorem Lays.append {parts others : List (Piece α)}
    (room : slot + width * (parts.length + others.length) ≤ start)
    (first : Lays width before middle slot start parts)
    (second : Lays width middle after (slot + width * parts.length) (start + bodies parts)
      others) :
    Lays width before after slot start (parts ++ others) := by
  have kept := second.kept
  have unchanged := first.kept
  rw [Nat.mul_add] at room
  refine ⟨laid_append.mpr ⟨first.laid.congr (fun index above below => ?_)
    fun index above below => ?_, second.laid⟩, fun index outside behind => ?_⟩
  · exact kept index (by omega) (by omega)
  · exact kept index (by omega) (by omega)
  · rw [List.length_append, Nat.mul_add] at outside
    rw [bodies_append] at behind
    rw [kept index (by omega) (by omega), unchanged index (by omega) (by omega)]

end Lib
