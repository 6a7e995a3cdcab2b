import Mathlib.Data.List.Basic

/-! # Length-delimited frames

A stream made of frames, each a header of fixed length that says how long the
body after it is. `parse` is the greedy reading of a stream; a receiver that is
given the stream in pieces is compared with it.
-/

namespace GNL

/-- The shape of a frame over symbols of type `β`. -/
structure FrameFormat (β : Type) where
  headerLength : Nat
  headerLength_pos : 0 < headerLength
  bodyLength : List β → Nat

namespace FrameFormat

variable {β : Type}

/-- The whole frames at the front of a stream, and what is left: an incomplete
frame, or nothing. -/
def parse (format : FrameFormat β) (stream : List β) :
    List (List β × List β) × List β :=
  let header := stream.take format.headerLength
  let body := (stream.drop format.headerLength).take (format.bodyLength header)
  let rest := stream.drop (format.headerLength + format.bodyLength header)
  if _whole : format.headerLength + format.bodyLength header ≤ stream.length then
    let later := format.parse rest
    ((header, body) :: later.1, later.2)
  else
    ([], stream)
termination_by stream.length
decreasing_by
  have positive := format.headerLength_pos
  simp only [List.length_drop]
  omega

def IsFrame (format : FrameFormat β) (frame : List β × List β) : Prop :=
  frame.1.length = format.headerLength ∧ frame.2.length = format.bodyLength frame.1

theorem parse_frame (format : FrameFormat β) {header body : List β}
    (isFrame : format.IsFrame (header, body)) (rest : List β) :
    format.parse (header ++ body ++ rest) =
      ((header, body) :: (format.parse rest).1, (format.parse rest).2) := by
  rcases isFrame with ⟨headerLength, bodyLength⟩
  dsimp only at headerLength bodyLength
  have takeHeader : (header ++ body ++ rest).take format.headerLength = header := by
    rw [List.append_assoc, ← headerLength, List.take_left]
  have dropHeader : (header ++ body ++ rest).drop format.headerLength = body ++ rest := by
    rw [List.append_assoc, ← headerLength, List.drop_left]
  rw [parse, takeHeader, dropHeader, ← bodyLength, List.take_left, ← headerLength,
    ← List.length_append, List.drop_left]
  simp

theorem parse_of_short (format : FrameFormat β) {stream : List β}
    (short : stream.length < format.headerLength) : format.parse stream = ([], stream) := by
  rw [parse]
  simp only [dite_eq_ite]
  rw [if_neg (by omega)]

theorem parse_of_truncated (format : FrameFormat β) {header body : List β}
    (length : header.length = format.headerLength)
    (short : body.length < format.bodyLength header) :
    format.parse (header ++ body) = ([], header ++ body) := by
  have takeHeader : (header ++ body).take format.headerLength = header := by
    rw [← length, List.take_left]
  rw [parse, takeHeader]
  simp only [dite_eq_ite]
  rw [if_neg (by rw [List.length_append]; omega)]

/-- Frames laid end to end are parsed back, whatever follows them. -/
theorem parse_frames (format : FrameFormat β) (frames : List (List β × List β))
    (areFrames : ∀ frame ∈ frames, format.IsFrame frame) (rest : List β) :
    format.parse ((frames.map fun frame => frame.1 ++ frame.2).flatten ++ rest) =
      (frames ++ (format.parse rest).1, (format.parse rest).2) := by
  induction frames with
  | nil => rfl
  | cons frame frames induction =>
      have later : ∀ other ∈ frames, format.IsFrame other := fun other member =>
        areFrames other (List.mem_cons_of_mem frame member)
      rw [List.map_cons, List.flatten_cons, List.append_assoc,
        format.parse_frame (areFrames frame List.mem_cons_self), induction later]
      rfl

end FrameFormat

end GNL
