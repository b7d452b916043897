import Pupnp.Http.Good

/-! Where the slices lie that a successful match returns. -/

namespace Pupnp.Http
open Pupnp.CString

def MatchArg.Between (low high : Nat) : MatchArg → Prop
  | .str m => low ≤ m.buf ∧ m.buf + m.length ≤ high
  | .int _ => True

theorem MatchArg.Between.mono {low low' high high' : Nat} (below : low' ≤ low) (above : high ≤ high')
    {a : MatchArg} (between : a.Between low high) : a.Between low' high' := by
  cases a with
  | str m => exact ⟨below.trans between.1, between.2.trans above⟩
  | int => trivial

/-! ### Raw values -/

theorem scanToken_crlf_blank {entire : Bool} {input : List UInt8} {n : Nat}
    (scanned : scanToken entire input = .ok (.crlf, n)) : ∀ c ∈ input.take n, isBlank c = true := by
  unfold scanToken at scanned
  split at scanned
  · cases scanned
  · rename_i c rest
    split_ifs at scanned with name blank cr lf quote
    · cases (scanRun_ok scanned).1
    · cases (scanRun_ok scanned).1
    · split at scanned
      · cases scanned
      · split_ifs at scanned with other
        · cases scanned
        · cases scanned
          simp [cr, not_not.mp other, isBlank]
    · cases scanned
      simp [lf, isBlank]
    · split at scanned <;> cases scanned
    · cases scanned
    · cases scanned

theorem scannerGetToken_crlf {sc next : Scanner} {token : Token} (found : scannerGetToken sc = .ok (token, next))
    (ends : token.type = .crlf) : ∀ c ∈ token.str.read sc.msg, isBlank c = true := by
  unfold scannerGetToken at found
  split at found
  · cases found
  · rename_i type length scanned
    cases found
    obtain rfl : type = .crlf := ends
    exact scanToken_crlf_blank scanned

theorem trimRight_append (front : List UInt8) {back : List UInt8} (blank : ∀ c ∈ back, isBlank c = true) :
    trimRight (front ++ back) ≤ front.length := by
  rw [trimRight]
  induction back using List.reverseRecOn with
  | nil =>
    rw [List.append_nil]
    exact trimRight_le front
  | append_singleton back c ih =>
    have last := blank c (List.mem_append_right _ List.mem_cons_self)
    rw [← List.append_assoc, List.rdropWhile_concat_pos _ _ _ last]
    exact ih fun d member => blank d (List.mem_append_left _ member)

/-- A value that ends lies in front of its line end, with nothing but blanks behind. -/
theorem rawValueRun_ends {sc : Scanner} {crlf : Option Nat} (start : Nat) {length : Nat}
    (taken : sc.cursor = start + length)
    (line : ∀ position, crlf = some position → start ≤ position ∧ position ≤ sc.cursor ∧
      ∀ c ∈ (sc.msg.drop position).take (sc.cursor - position), isBlank c = true)
    (ended : (rawValueRun sc crlf length).1 = .ok) :
    start ≤ (rawValueRun sc crlf length).2.1.cursor ∧
      (rawValueRun sc crlf length).2.1.cursor ≤ start + (rawValueRun sc crlf length).2.2 ∧
        ∀ c ∈ (sc.msg.drop (rawValueRun sc crlf length).2.1.cursor).take
          (start + (rawValueRun sc crlf length).2.2 - (rawValueRun sc crlf length).2.1.cursor), isBlank c = true := by
  fun_induction rawValueRun sc crlf length with
  | case1 sc crlf length status found =>
    rcases scanToken_error (scannerGetToken_error found) with rfl | rfl <;> cases ended
  | case2 sc length token next found ends ih =>
    have text := scannerGetToken_crlf found ends
    obtain ⟨rfl, at_cursor, -, -⟩ := scannerGetToken_ok found
    refine ih (by dsimp only; omega) ?_ ended
    rintro position ⟨⟩
    refine ⟨by omega, Nat.le_add_right _ _, ?_⟩
    rw [Nat.add_sub_cancel_left]
    rwa [Memptr.read, at_cursor] at text
  | case3 sc length token next found text ih =>
    obtain ⟨rfl, -, -, -⟩ := scannerGetToken_ok found
    exact ih (by dsimp only; omega) (by simp) ended
  | case4 sc length token next found position blank ih =>
    obtain ⟨rfl, -, -, -⟩ := scannerGetToken_ok found
    exact ih (by dsimp only; omega) (by simp) ended
  | case5 sc length token next found position text =>
    obtain ⟨low, high, blank⟩ := line position rfl
    refine ⟨low, by dsimp only; omega, ?_⟩
    dsimp only
    rwa [← taken]

theorem matchRawValue_between {sc : Scanner} (matched : (matchRawValue sc).1 = .ok) :
    (matchRawValue sc).2.2.buf = sc.cursor ∧
      sc.cursor + (matchRawValue sc).2.2.length ≤ (matchRawValue sc).2.1.cursor := by
  have ended : (rawValueRun sc none 0).1 = .ok := by
    by_contra other
    simp only [matchRawValue, if_neg other] at matched
    exact other matched
  obtain ⟨low, high, blank⟩ := rawValueRun_ends sc.cursor rfl (by simp) ended
  simp only [matchRawValue, if_pos ended, Memptr.read, true_and]
  generalize (rawValueRun sc none 0).2.1.cursor = position at low high blank ⊢
  generalize (rawValueRun sc none 0).2.2 = length at high blank ⊢
  have split : (sc.msg.drop sc.cursor).take length =
      (sc.msg.drop sc.cursor).take (position - sc.cursor) ++
        (sc.msg.drop position).take (sc.cursor + length - position) := by
    rw [← Nat.add_sub_cancel' low, Nat.add_sub_cancel_left, ← List.drop_drop]
    rw [Nat.add_sub_add_left, ← List.take_add, Nat.add_sub_cancel']
    omega
  have trimmed := trimRight_append ((sc.msg.drop sc.cursor).take (position - sc.cursor)) blank
  rw [split]
  rw [List.length_take] at trimmed
  omega

/-! ### Directives -/

theorem scannerGetToken_behind {sc : Scanner} (behind : sc.msg.length ≤ sc.cursor) :
    scannerGetToken sc = .error .incomplete := by
  rw [scannerGetToken_rest, Scanner.rest, List.drop_eq_nil_of_le behind]
  rfl

theorem matchDirective_token {caseSensitive : Bool} {sc : Scanner} {d : Directive} {m : Memptr}
    (matched : (matchDirective caseSensitive sc d).1 = .ok)
    (member : MatchArg.str m ∈ (matchDirective caseSensitive sc d).2.2) : sc.cursor < sc.msg.length := by
  by_contra behind
  have short := scannerGetToken_behind (Nat.le_of_not_lt behind)
  cases d with
  | rawValue => simp [matchDirective, matchRawValue, rawValueRun_error short] at matched
  | nonWsString =>
    simp only [matchDirective, matchNonWsString, nonWsRun_error short, Nat.sub_self] at matched
    split_ifs at matched
  | line => simp [matchDirective, readUntilCrlf, crlfRun_error short] at matched
  | identifier => simp [matchDirective, matchToken, short] at matched
  | crlf => simp [matchDirective, matchToken, short] at matched
  | quoted => simp [matchDirective, matchToken, short] at matched
  | ws => simp [matchDirective, matchToken, short] at matched
  | int base => simp [matchDirective] at member
  | optionalWs => simp [matchDirective, matchOptionalWs, short] at member
  | _ => simp [matchDirective] at member

theorem matchToken_between {sc : Scanner} {type : TokenType} {store : Bool}
    (matched : (matchToken sc type store).1 = .ok) :
    ∀ a ∈ (matchToken sc type store).2.2, a.Between sc.cursor (matchToken sc type store).2.1.cursor := by
  obtain ⟨token, next, found, -, moved⟩ := matchToken_ok matched
  obtain ⟨rfl, start, -, -⟩ := scannerGetToken_ok found
  intro a member
  simp only [matchToken, found] at member ⊢
  split_ifs at member
  · rw [List.mem_singleton] at member
    rw [member, MatchArg.Between, start]
    exact ⟨le_rfl, le_rfl⟩
  · cases member

theorem matchDirective_between {caseSensitive : Bool} {sc : Scanner} {d : Directive}
    (matched : (matchDirective caseSensitive sc d).1 = .ok) :
    ∀ a ∈ (matchDirective caseSensitive sc d).2.2,
      a.Between sc.cursor (matchDirective caseSensitive sc d).2.1.cursor := by
  cases d with
  | rawValue =>
    obtain ⟨start, within⟩ := matchRawValue_between matched
    intro a member
    rw [List.mem_singleton.mp member, MatchArg.Between, start]
    exact ⟨le_rfl, within⟩
  | identifier => exact matchToken_between matched
  | crlf => exact matchToken_between matched
  | quoted => exact matchToken_between matched
  | ws => exact matchToken_between matched
  | nonWsString =>
    have forward := (nonWsRun_matched sc).reaches.forward
    intro a member
    simp only [matchDirective, matchNonWsString] at matched member ⊢
    split_ifs at matched member ⊢
    · rw [List.mem_singleton.mp member]
      exact ⟨le_rfl, by dsimp only; omega⟩
    · simp_all
  | line =>
    have forward := (crlfRun_matched sc).reaches.forward
    intro a member
    simp only [matchDirective, readUntilCrlf] at member ⊢
    rw [List.mem_singleton.mp member]
    exact ⟨le_rfl, by dsimp only; omega⟩
  | int base =>
    intro a member
    simp only [matchDirective, List.mem_map] at member
    obtain ⟨value, -, rfl⟩ := member
    trivial
  | position =>
    intro a member
    rw [List.mem_singleton.mp member]
    trivial
  | optionalWs =>
    simp only [matchDirective, matchOptionalWs]
    split <;> exact List.forall_mem_nil _
  | _ => exact List.forall_mem_nil _

/-- All slices of a match that succeeds lie between where it began and where it ended. -/
theorem vfmatchLoop_between {caseSensitive : Bool} {sc : Scanner} {fmt : List Directive}
    (matched : (vfmatchLoop caseSensitive sc fmt).1 = .ok) :
    ∀ a ∈ (vfmatchLoop caseSensitive sc fmt).2.2,
      a.Between sc.cursor (vfmatchLoop caseSensitive sc fmt).2.1.cursor := by
  induction fmt generalizing caseSensitive sc with
  | nil => exact List.forall_mem_nil _
  | cons d fmt ih =>
    have here : (matchDirective caseSensitive sc d).1 = .ok := by
      by_contra stopped
      rw [vfmatchLoop_stop stopped] at matched
      exact stopped matched
    have moved := (matchDirective_matched caseSensitive sc d).reaches.forward
    rw [vfmatchLoop_cons here] at matched ⊢
    have later := (vfmatchLoop_matched (d.nextCase caseSensitive) (matchDirective caseSensitive sc d).2.1 fmt).reaches.forward
    rw [List.forall_mem_append]
    constructor
    · intro a member
      exact (matchDirective_between here a member).mono le_rfl later
    · intro a member
      exact (ih matched a member).mono moved le_rfl

theorem vfmatchLoop_token {caseSensitive : Bool} {sc : Scanner} {fmt : List Directive} {m : Memptr}
    (matched : (vfmatchLoop caseSensitive sc fmt).1 = .ok)
    (member : MatchArg.str m ∈ (vfmatchLoop caseSensitive sc fmt).2.2) : sc.cursor < sc.msg.length := by
  induction fmt generalizing caseSensitive sc with
  | nil => cases member
  | cons d fmt ih =>
    have here : (matchDirective caseSensitive sc d).1 = .ok := by
      by_contra stopped
      rw [vfmatchLoop_stop stopped] at matched
      exact stopped matched
    have moved := (matchDirective_matched caseSensitive sc d).reaches
    rw [vfmatchLoop_cons here] at matched member
    obtain first | later := List.mem_append.mp member
    · exact matchDirective_token here first
    · have inside := ih matched later
      rw [moved.msg] at inside
      exact moved.forward.trans_lt inside

/-- What a match promises: it stays where it was unless it succeeds, it never passes the end of the
buffer, and it returns slices of what it has passed. -/
structure MatchSafe (sc : Scanner) (r : MatchResult) : Prop where
  restored : r.1 ≠ .ok → r.2.1.cursor = sc.cursor
  inside : r.2.1.cursor = sc.cursor ∨ r.2.1.cursor ≤ sc.msg.length
  slices : r.1 = .ok → ∀ m, MatchArg.str m ∈ r.2.2 →
    sc.cursor ≤ m.buf ∧ m.buf + m.length ≤ r.2.1.cursor ∧ m.buf + m.length ≤ sc.msg.length

theorem vfmatch_safe (sc : Scanner) (fmt : List Directive) : MatchSafe sc (vfmatch sc fmt) := by
  have moved := (vfmatch_matched sc fmt).reaches
  refine ⟨?_, ?_, ?_⟩
  · intro failed
    simp only [vfmatch] at failed ⊢
    rw [if_neg failed]
  · have forward := moved.forward
    have bound := moved.bound
    omega
  · intro matched m member
    have bound := moved.bound
    simp only [vfmatch] at matched member bound ⊢
    rw [if_pos matched] at bound ⊢
    obtain ⟨low, high⟩ := vfmatchLoop_between matched _ member
    have start := vfmatchLoop_token matched member
    exact ⟨low, high, by omega⟩

/-- The promise of `match`, for every format. -/
theorem matchFormat_safe (sc : Scanner) (fmt : String) : MatchSafe sc (matchFormat sc fmt) :=
  vfmatch_safe sc (format fmt)

end Pupnp.Http
