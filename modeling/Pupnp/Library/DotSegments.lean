import Pupnp.Library.Path

/-!
`remove_dot_segments` of RFC 3986, section 5.2.4: the rules 2.A to 2.E on an input and an output buffer,
applied until the input is empty.
-/

namespace Pupnp.Path
open Pupnp.CString

/-- The first segment of a path, with the slash before it and without the one behind it. -/
def headSegment : List UInt8 → List UInt8
  | [] => []
  | c :: rest => c :: rest.takeWhile (· ≠ SLASH)

theorem headSegment_start (path : List UInt8) : headSegment path <+: path := by
  cases path with
  | nil => exact List.nil_prefix
  | cons c rest => exact List.cons_prefix_cons.mpr ⟨rfl, List.takeWhile_prefix _⟩

def rewriteDots (input output : List UInt8) : List UInt8 × List UInt8 :=
  if bytes "./" <+: input then (input.drop 2, output)
  else if bytes "../" <+: input then (input.drop 3, output)
  else if bytes "/./" <+: input then (SLASH :: input.drop 3, output)
  else if input = bytes "/." then ([SLASH], output)
  else if bytes "/../" <+: input then (SLASH :: input.drop 4, parent output)
  else if input = bytes "/.." then ([SLASH], parent output)
  else if input = bytes "." ∨ input = bytes ".." then ([], output)
  else (input.drop (headSegment input).length, output ++ headSegment input)

theorem rewriteDots_shorter {input : List UInt8} (more : input ≠ []) (output : List UInt8) :
    (rewriteDots input output).1.length < input.length := by
  have positive := List.length_pos_iff.mpr more
  unfold rewriteDots
  split_ifs with curA parentA curB curEnd parentC parentEnd curD
  · rw [List.length_drop]
    omega
  · rw [List.length_drop]
    omega
  · have length := curB.length_le
    rw [List.length_cons, List.length_drop]
    rw [show (bytes "/./").length = 3 from rfl] at length
    omega
  · rw [curEnd]
    exact show 1 < 2 by decide
  · have length := parentC.length_le
    rw [List.length_cons, List.length_drop]
    rw [show (bytes "/../").length = 4 from rfl] at length
    omega
  · rw [parentEnd]
    exact show 1 < 3 by decide
  · exact positive
  · obtain ⟨c, rest, rfl⟩ := List.exists_cons_of_ne_nil more
    rw [List.length_drop, headSegment, List.length_cons, List.length_cons]
    omega

def removeDotSegmentsFrom (input output : List UInt8) : List UInt8 :=
  if _more : input = [] then output
  else removeDotSegmentsFrom (rewriteDots input output).1 (rewriteDots input output).2
termination_by input.length
decreasing_by exact rewriteDots_shorter _more output

def removeDotSegments (path : List UInt8) : List UInt8 := removeDotSegmentsFrom path []

theorem removeDotSegmentsFrom_nil (output : List UInt8) : removeDotSegmentsFrom [] output = output := by
  rw [removeDotSegmentsFrom, dif_pos rfl]

theorem removeDotSegmentsFrom_step {input : List UInt8} (more : input ≠ []) (output : List UInt8) :
    removeDotSegmentsFrom input output =
      removeDotSegmentsFrom (rewriteDots input output).1 (rewriteDots input output).2 := by
  rw [removeDotSegmentsFrom, dif_neg more]

example : removeDotSegments (bytes "/a/b/c/./../../g") = bytes "/a/g" := by decide +kernel
example : removeDotSegments (bytes "mid/content=5/../6") = bytes "mid/6" := by decide +kernel

end Pupnp.Path
