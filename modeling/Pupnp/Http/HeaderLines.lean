import Pupnp.Http.HeaderLine

/-! The header lines that `parser_parse_headers` reads, and the header list that it makes of them. -/

namespace Pupnp.Http
open Pupnp.CString Pupnp.Uri

/-! ### Reading the lines -/

structure ReadLine where
  name : List UInt8
  value : List UInt8
  deriving DecidableEq, Repr

def headerLine (sc : Scanner) : Option (ReadLine × Scanner) :=
  match scannerGetToken sc with
  | .error _ => none
  | .ok (token, next) =>
      let m := matchFormat next " : %R%c"
      if token.type = .identifier && m.1 = .ok then
        some (⟨token.str.read sc.msg, (strArg m.2.2 0).read sc.msg⟩, m.2.1)
      else none

theorem headerLine_remaining {sc next : Scanner} {line : ReadLine}
    (found : headerLine sc = some (line, next)) : next.remaining < sc.remaining := by
  unfold headerLine at found
  split at found
  · cases found
  · rename_i token middle scanned
    dsimp only at found
    split_ifs at found
    cases found
    have value := (matchFormat_matched middle " : %R%c").reaches.remaining
    exact value.trans_lt (scannerGetToken_remaining scanned)

/-- The header lines from the cursor on, up to the first thing that is none. -/
def headerLines (sc : Scanner) : List ReadLine :=
  match _h : headerLine sc with
  | some (line, next) => line :: headerLines next
  | none => []
termination_by sc.remaining
decreasing_by exact headerLine_remaining _h

theorem headerLines_next {sc next : Scanner} {line : ReadLine}
    (found : headerLine sc = some (line, next)) : headerLines sc = line :: headerLines next := by
  rw [headerLines]
  split <;> simp_all

theorem headerLines_end {sc : Scanner} (found : headerLine sc = none) : headerLines sc = [] := by
  rw [headerLines]
  split <;> simp_all

def addLine (msg : HttpMessage) (line : ReadLine) : HttpMessage := addHeader msg line.name line.value

theorem parseHeaderLine_some {p : HttpParser} {line : ReadLine} {next : Scanner}
    (found : headerLine p.scanner = some (line, next)) :
    parseHeaderLine p = (.continue1, { p with scanner := next, msg := addLine p.msg line }) := by
  unfold headerLine at found
  split at found
  · cases found
  · rename_i token middle scanned
    dsimp only at found
    split_ifs at found with isLine
    cases found
    rw [Bool.and_eq_true, decide_eq_true_eq, decide_eq_true_eq] at isLine
    unfold parseHeaderLine
    rw [scanned]
    simp only [isLine.1, isLine.2, ne_eq, not_true_eq_false, if_false]
    rfl

theorem parseHeaderLine_none {p : HttpParser} (found : headerLine p.scanner = none) :
    (parseHeaderLine p).1 ≠ .continue1 ∧ (parseHeaderLine p).2.msg = p.msg := by
  unfold headerLine at found
  unfold parseHeaderLine
  cases scanned : scannerGetToken p.scanner with
  | error status =>
    refine ⟨?_, rfl⟩
    rcases scanToken_error (scannerGetToken_error scanned) with rfl | rfl <;> simp
  | ok read =>
    obtain ⟨token, middle⟩ := read
    rw [scanned] at found
    dsimp only at found ⊢
    split_ifs at found with isLine
    cases kind : token.type with
    | crlf =>
      simp only
      split_ifs <;> simp
    | identifier =>
      rw [Bool.and_eq_true, decide_eq_true_eq, decide_eq_true_eq, not_and] at isLine
      have failed := isLine kind
      simp only [failed, ne_eq, not_false_eq_true, if_true, and_true]
      exact matchFormat_not_continue _ _
    | _ => simp [HttpParser.withScanner]

theorem parserParseHeaders_msg (p : HttpParser) :
    (parserParseHeaders p).2.msg = (headerLines p.scanner).foldl addLine p.msg := by
  fun_induction parserParseHeaders p with
  | case1 p next again ih =>
    cases found : headerLine p.scanner with
    | none => exact absurd (congrArg Prod.fst again) (parseHeaderLine_none found).1
    | some read =>
      obtain ⟨line, behind⟩ := read
      have step := again.symm.trans (parseHeaderLine_some found)
      obtain ⟨-, rfl⟩ := Prod.mk.inj step
      rw [headerLines_next found, List.foldl_cons]
      exact ih
  | case2 p last =>
    cases found : headerLine p.scanner with
    | none =>
      rw [headerLines_end found]
      exact (parseHeaderLine_none found).2
    | some read => exact absurd (parseHeaderLine_some found) (last _)

theorem scanToken_name {entire : Bool} {input : List UInt8} {n : Nat}
    (scanned : scanToken entire input = .ok (.identifier, n)) :
    ∀ c ∈ input.take n, isIdentifierChar c = true := by
  unfold scanToken at scanned
  split at scanned
  · cases scanned
  · rename_i c rest
    split_ifs at scanned with name blank cr lf quote
    · obtain ⟨-, rfl⟩ := scanRun_ok scanned
      intro d member
      rw [List.take_succ_cons, List.mem_cons] at member
      obtain rfl | later := member
      · exact name
      · rw [← List.prefix_iff_eq_take.mp (List.takeWhile_prefix isIdentifierChar)] at later
        exact List.mem_takeWhile_imp later
    · cases (scanRun_ok scanned).1
    · split at scanned
      · cases scanned
      · split_ifs at scanned <;> cases scanned
    · cases scanned
    · split at scanned <;> cases scanned
    · cases scanned
    · cases scanned

theorem headerLine_name {sc next : Scanner} {line : ReadLine} (found : headerLine sc = some (line, next)) :
    0 ∉ line.name := by
  unfold headerLine at found
  split at found
  · cases found
  · rename_i token middle scanned
    dsimp only at found
    split_ifs at found with isLine
    cases found
    rw [Bool.and_eq_true, decide_eq_true_eq] at isLine
    unfold scannerGetToken at scanned
    split at scanned
    · cases scanned
    · rename_i type length read
      cases scanned
      obtain rfl : type = .identifier := isLine.1
      intro member
      have zero := scanToken_name read 0 member
      revert zero
      decide

theorem headerLines_names (sc : Scanner) : ∀ line ∈ headerLines sc, 0 ∉ line.name := by
  fun_induction headerLines sc with
  | case1 sc line next found ih => exact List.forall_mem_cons.mpr ⟨headerLine_name found, ih⟩
  | case2 sc => exact List.forall_mem_nil _

/-! ### Merging the values -/

def valuesOf (lines : List ReadLine) (name : List UInt8) : List (List UInt8) :=
  (lines.filter fun line => SameName name line.name).map ReadLine.value

def joinValues (values : List (List UInt8)) : List UInt8 :=
  List.intercalate (bytes ", ") (values.filter (· ≠ []))

def firstValue (value : List UInt8) : List UInt8 := if value = [] then [0] else value

def storedValues : List (List UInt8) → List UInt8
  | [] => []
  | first :: later => firstValue first ++ (later.filter (· ≠ [])).flatMap (bytes ", " ++ ·)

/-- A header list that `parser_parse_headers` has made of some lines. -/
structure MadeOf (headers : List HttpHeader) (lines : List ReadLine) : Prop where
  distinct : headers.Pairwise fun a b => ¬SameName a.name b.name
  ids : ∀ h ∈ headers, h.nameId = (lookupHeader h.name).getD .unknown
  heard : ∀ h ∈ headers, valuesOf lines h.name ≠ []
  values : ∀ h ∈ headers, h.value = storedValues (valuesOf lines h.name)
  stored : ∀ line ∈ lines, ∃ h ∈ headers, SameName h.name line.name

theorem MadeOf.nil : MadeOf [] [] := ⟨.nil, nofun, nofun, nofun, nofun⟩

theorem valuesOf_append (lines : List ReadLine) (line : ReadLine) (name : List UInt8) :
    valuesOf (lines ++ [line]) name =
      valuesOf lines name ++ if SameName name line.name then [line.value] else [] := by
  rw [valuesOf, valuesOf, List.filter_append, List.map_append, List.filter_singleton]
  split_ifs <;> simp_all

theorem storedValues_append {values : List (List UInt8)} (some : values ≠ []) (value : List UInt8) :
    storedValues (values ++ [value]) =
      if value = [] then storedValues values else storedValues values ++ bytes ", " ++ value := by
  cases values with
  | nil => exact absurd rfl some
  | cons first later =>
    rw [List.cons_append, storedValues, storedValues, List.filter_append, List.flatMap_append]
    split_ifs with empty
    · simp [empty]
    · simp [empty]

def sameAs (line : ReadLine) (h : HttpHeader) : Bool := SameName h.name line.name

def joinLine (line : ReadLine) (h : HttpHeader) : HttpHeader :=
  { h with value := h.value ++ bytes ", " ++ line.value }

def hearLine (line : ReadLine) (h : HttpHeader) : HttpHeader := if sameAs line h then joinLine line h else h

@[simp] theorem hearLine_name (line : ReadLine) (h : HttpHeader) : (hearLine line h).name = h.name := by
  rw [hearLine]
  split_ifs <;> rfl

@[simp] theorem hearLine_nameId (line : ReadLine) (h : HttpHeader) : (hearLine line h).nameId = h.nameId := by
  rw [hearLine]
  split_ifs <;> rfl

def ReadLine.header (line : ReadLine) : HttpHeader :=
  ⟨line.name, (lookupHeader line.name).getD .unknown, firstValue line.value⟩

theorem updateFirst_congr {p q : HttpHeader → Bool} {headers : List HttpHeader}
    (same : ∀ h ∈ headers, p h = q h) (f : HttpHeader → HttpHeader) :
    updateFirst p f headers = updateFirst q f headers := by
  induction headers with
  | nil => rfl
  | cons h headers ih =>
    rw [updateFirst, updateFirst, same h List.mem_cons_self,
      ih fun other member => same other (List.mem_cons_of_mem h member)]

theorem updateFirst_eq_map {p : HttpHeader → Bool} {headers : List HttpHeader}
    (one : headers.Pairwise fun a b => ¬(p a = true ∧ p b = true)) (f : HttpHeader → HttpHeader) :
    updateFirst p f headers = headers.map fun h => if p h then f h else h := by
  induction headers with
  | nil => rfl
  | cons h headers ih =>
    obtain ⟨apart, later⟩ := List.pairwise_cons.mp one
    rw [updateFirst, List.map_cons]
    by_cases here : p h = true
    · have others : headers.map (fun h => if p h then f h else h) = headers := by
        rw [List.map_congr_left (g := id), List.map_id]
        intro other member
        exact if_neg fun there => apart other member ⟨here, there⟩
      rw [if_pos here, if_pos here, others]
    · rw [if_neg here, if_neg here, ih later]

def putLine (isOrig : HttpHeader → Bool) (msg : HttpMessage) (line : ReadLine) : HttpMessage :=
  match msg.headers.find? isOrig with
  | none => { msg with headers := msg.headers ++ [line.header] }
  | some _ =>
      if line.value = [] then msg
      else { msg with headers := updateFirst isOrig (joinLine line) msg.headers }

def markSoap (msg : HttpMessage) (line : ReadLine) : HttpMessage :=
  if lookupHeader line.name = some .soapaction then { msg with method := .soapPost } else msg

theorem addLine_known (msg : HttpMessage) {line : ReadLine} {id : HdrId} (known : lookupHeader line.name = some id) :
    addLine msg line = putLine (fun h => h.nameId = id) (markSoap msg line) line := by
  rw [addLine, addHeader, putLine, markSoap, ReadLine.header]
  simp only [known]
  rfl

theorem addLine_unknown (msg : HttpMessage) {line : ReadLine} (known : lookupHeader line.name = none) :
    addLine msg line = putLine (fun h => memptrCmpNocase h.name line.name = 0) (markSoap msg line) line := by
  rw [addLine, addHeader, putLine, markSoap, ReadLine.header]
  simp only [known]
  rfl

@[simp] theorem markSoap_headers (msg : HttpMessage) (line : ReadLine) :
    (markSoap msg line).headers = msg.headers := by
  rw [markSoap]
  split_ifs <;> rfl

theorem putLine_headers {msg : HttpMessage} {line : ReadLine} {isOrig : HttpHeader → Bool}
    (same : ∀ h ∈ msg.headers, isOrig h = sameAs line h) :
    (putLine isOrig msg line).headers =
      if msg.headers.any (sameAs line) then
        if line.value = [] then msg.headers else updateFirst (sameAs line) (joinLine line) msg.headers
      else msg.headers ++ [line.header] := by
  rw [putLine]
  cases seen : msg.headers.find? isOrig with
  | none =>
    have unseen : ¬msg.headers.any (sameAs line) = true := by
      rw [List.any_eq_true]
      rintro ⟨h, member, here⟩
      exact List.find?_eq_none.mp seen h member ((same h member).trans here)
    rw [if_neg unseen]
  | some h =>
    have member := List.mem_of_find?_eq_some seen
    have here : msg.headers.any (sameAs line) = true :=
      List.any_eq_true.mpr ⟨h, member, (same h member).symm.trans (List.find?_some seen)⟩
    rw [if_pos here]
    dsimp only
    split_ifs
    · rfl
    · exact updateFirst_congr same _

theorem addLine_headers {msg : HttpMessage} {line : ReadLine} (name : 0 ∉ line.name)
    (ids : ∀ h ∈ msg.headers, h.nameId = (lookupHeader h.name).getD .unknown) :
    (addLine msg line).headers =
      if msg.headers.any (sameAs line) then
        if line.value = [] then msg.headers else updateFirst (sameAs line) (joinLine line) msg.headers
      else msg.headers ++ [line.header] := by
  have same (h : HttpHeader) : clash h.name line.name = sameAs line h := by
    rw [Bool.eq_iff_iff, clash_iff name, sameAs, decide_eq_true_eq]
  rw [← markSoap_headers msg line] at ids ⊢
  cases known : lookupHeader line.name with
  | none =>
    rw [addLine_unknown msg known]
    apply putLine_headers
    intro h _
    rw [← same h, clash, known]
  | some id =>
    rw [addLine_known msg known]
    apply putLine_headers
    intro h member
    rw [← same h, clash, known, ids h member]

section Add

variable {headers : List HttpHeader} {lines : List ReadLine} (made : MadeOf headers lines) {line : ReadLine}
include made

theorem MadeOf.heard_add {h : HttpHeader} (member : h ∈ headers) : valuesOf (lines ++ [line]) h.name ≠ [] := by
  rw [valuesOf_append]
  exact List.append_ne_nil_of_left_ne_nil (made.heard h member) _

theorem MadeOf.stored_add (seen : ∃ h ∈ headers, SameName h.name line.name) :
    ∀ other ∈ lines ++ [line], ∃ h ∈ headers, SameName h.name other.name := by
  intro other member
  obtain earlier | last := List.mem_append.mp member
  · exact made.stored other earlier
  · rw [List.mem_singleton.mp last]
    exact seen

theorem MadeOf.empty (seen : ∃ h ∈ headers, SameName h.name line.name) (empty : line.value = []) :
    MadeOf headers (lines ++ [line]) := by
  refine ⟨made.distinct, made.ids, fun h member => made.heard_add member, ?_, made.stored_add seen⟩
  intro h member
  rw [made.values h member, valuesOf_append]
  split_ifs
  · rw [storedValues_append (made.heard h member), if_pos empty]
  · rw [List.append_nil]

theorem MadeOf.join (seen : ∃ h ∈ headers, SameName h.name line.name) (nonempty : line.value ≠ []) :
    MadeOf (updateFirst (sameAs line) (joinLine line) headers) (lines ++ [line]) := by
  have one : headers.Pairwise fun a b => ¬(sameAs line a = true ∧ sameAs line b = true) := by
    apply made.distinct.imp
    intro a b apart both
    simp only [sameAs, decide_eq_true_eq] at both
    exact apart (both.1.trans both.2.symm)
  have joined : updateFirst (sameAs line) (joinLine line) headers = headers.map (hearLine line) :=
    updateFirst_eq_map one (joinLine line)
  rw [joined]
  constructor
  · rw [List.pairwise_map]
    apply made.distinct.imp
    intro a b apart
    rwa [hearLine_name, hearLine_name]
  · rw [List.forall_mem_map]
    intro h member
    rw [hearLine_name, hearLine_nameId, made.ids h member]
  · rw [List.forall_mem_map]
    intro h member
    rw [hearLine_name]
    exact made.heard_add member
  · rw [List.forall_mem_map]
    intro h member
    rw [hearLine_name, valuesOf_append]
    by_cases same : SameName h.name line.name
    · have here : hearLine line h = joinLine line h := if_pos (decide_eq_true same)
      rw [if_pos same, here, storedValues_append (made.heard h member), if_neg nonempty,
        ← made.values h member, joinLine]
    · have here : hearLine line h = h := if_neg fun is => same (of_decide_eq_true is)
      rw [if_neg same, here, List.append_nil]
      exact made.values h member
  · intro other member
    obtain ⟨h, inside, same⟩ := made.stored_add seen other member
    refine ⟨hearLine line h, List.mem_map_of_mem inside, ?_⟩
    rwa [hearLine_name]

theorem MadeOf.fresh (unseen : ∀ h ∈ headers, ¬SameName h.name line.name) :
    MadeOf (headers ++ [line.header]) (lines ++ [line]) := by
  have first : valuesOf lines line.name = [] := by
    rw [valuesOf, List.map_eq_nil_iff, List.filter_eq_nil_iff]
    intro other member same
    obtain ⟨h, inside, is⟩ := made.stored other member
    exact unseen h inside (is.trans (of_decide_eq_true same).symm)
  have only : valuesOf (lines ++ [line]) line.name = [line.value] := by
    rw [valuesOf_append, first, if_pos (show SameName line.name line.name from rfl)]
    rfl
  constructor
  · rw [List.pairwise_append]
    refine ⟨made.distinct, List.pairwise_singleton _ _, ?_⟩
    intro h member other last
    rw [List.mem_singleton.mp last]
    exact unseen h member
  · rw [List.forall_mem_append]
    exact ⟨made.ids, by simp [ReadLine.header]⟩
  · rw [List.forall_mem_append]
    refine ⟨fun h member => made.heard_add member, ?_⟩
    intro h last
    rw [List.mem_singleton.mp last]
    exact only ▸ List.cons_ne_nil _ _
  · rw [List.forall_mem_append]
    constructor
    · intro h member
      rw [valuesOf_append, if_neg (unseen h member), List.append_nil]
      exact made.values h member
    · intro h last
      rw [List.mem_singleton.mp last, show line.header.name = line.name from rfl, only]
      simp [ReadLine.header, storedValues]
  · intro other member
    obtain earlier | last := List.mem_append.mp member
    · obtain ⟨h, inside, same⟩ := made.stored other earlier
      exact ⟨h, List.mem_append_left _ inside, same⟩
    · rw [List.mem_singleton.mp last]
      exact ⟨line.header, List.mem_append_right _ List.mem_cons_self, rfl⟩

end Add

theorem MadeOf.add {msg : HttpMessage} {lines : List ReadLine} (made : MadeOf msg.headers lines)
    {line : ReadLine} (name : 0 ∉ line.name) : MadeOf (addLine msg line).headers (lines ++ [line]) := by
  rw [addLine_headers name made.ids]
  by_cases seen : ∃ h ∈ msg.headers, SameName h.name line.name
  · have found : msg.headers.any (sameAs line) = true := by
      obtain ⟨h, member, same⟩ := seen
      exact List.any_eq_true.mpr ⟨h, member, decide_eq_true same⟩
    rw [if_pos found]
    split_ifs with empty
    · exact made.empty seen empty
    · exact made.join seen empty
  · have missed : ¬msg.headers.any (sameAs line) = true := by
      rw [List.any_eq_true]
      rintro ⟨h, member, same⟩
      exact seen ⟨h, member, of_decide_eq_true same⟩
    rw [if_neg missed]
    exact made.fresh fun h member same => seen ⟨h, member, same⟩

theorem MadeOf.addAll {lines : List ReadLine} (names : ∀ line ∈ lines, 0 ∉ line.name) {msg : HttpMessage}
    {earlier : List ReadLine} (made : MadeOf msg.headers earlier) :
    MadeOf (lines.foldl addLine msg).headers (earlier ++ lines) := by
  induction lines generalizing msg earlier with
  | nil => rwa [List.append_nil]
  | cons line lines ih =>
    obtain ⟨name, later⟩ := List.forall_mem_cons.mp names
    have whole := ih later (made.add name)
    rwa [List.append_assoc] at whole

theorem parserParseHeaders_madeOf {p : HttpParser} {earlier : List ReadLine}
    (made : MadeOf p.msg.headers earlier) :
    MadeOf (parserParseHeaders p).2.msg.headers (earlier ++ headerLines p.scanner) := by
  rw [parserParseHeaders_msg]
  exact made.addAll (headerLines_names p.scanner)

/-! ### What the code makes of the values -/

theorem intercalate_cons (sep first : List UInt8) (later : List (List UInt8)) :
    List.intercalate sep (first :: later) = first ++ later.flatMap (sep ++ ·) := by
  induction later generalizing first with
  | nil => simp
  | cons second later ih =>
    rw [List.intercalate_cons_cons, ih second, List.flatMap_cons]
    simp only [List.append_assoc]

theorem storedValues_filled {first : List UInt8} (filled : first ≠ []) (later : List (List UInt8)) :
    storedValues (first :: later) = joinValues (first :: later) := by
  rw [storedValues, joinValues, firstValue, if_neg filled, List.filter_cons_of_pos (by simpa using filled),
    intercalate_cons]

theorem joinValues_empty (later : List (List UInt8)) : joinValues ([] :: later) = joinValues later := by
  rw [joinValues, joinValues, List.filter_cons_of_neg (by simp)]

theorem storedValues_empty (later : List (List UInt8)) :
    storedValues ([] :: later) = 0 :: if joinValues later = [] then [] else bytes ", " ++ joinValues later := by
  have filled : ∀ value ∈ later.filter (· ≠ []), value ≠ [] := fun value member => by
    simpa using (List.mem_filter.mp member).2
  rw [storedValues, joinValues, firstValue, if_pos rfl, List.singleton_append]
  generalize later.filter (· ≠ []) = values at filled
  cases values with
  | nil => simp
  | cons second others =>
    have nonempty := filled second List.mem_cons_self
    rw [intercalate_cons, List.flatMap_cons, if_neg (by simp [nonempty]), List.append_assoc]

theorem storedValues_right_iff (values : List (List UInt8)) :
    storedValues values = joinValues values ↔ values.head? ≠ some [] := by
  cases values with
  | nil => exact iff_of_true rfl (by simp)
  | cons first later =>
    rw [List.head?_cons, Ne, Option.some.injEq]
    by_cases empty : first = []
    · apply iff_of_false _ (not_not.mpr empty)
      rw [empty, storedValues_empty, joinValues_empty]
      intro same
      have length := congrArg List.length same
      split_ifs at length with none
      · simp [none] at length
      · simp only [List.length_cons, List.length_append] at length
        omega
    · exact iff_of_true (storedValues_filled empty later) empty

/-- The names differ, and each value is the join of those that arrived with the name. -/
def HeadersRight (headers : List HttpHeader) (lines : List ReadLine) : Prop :=
  (headers.Pairwise fun a b => ¬SameName a.name b.name) ∧
    ∀ h ∈ headers, h.value = joinValues (valuesOf lines h.name)

def FirstFilled (lines : List ReadLine) : Prop := ∀ line ∈ lines, (valuesOf lines line.name).head? ≠ some []

instance (lines : List ReadLine) : Decidable (FirstFilled lines) := inferInstanceAs (Decidable (∀ _ ∈ _, _))

theorem valuesOf_congr (lines : List ReadLine) {a b : List UInt8} (same : SameName a b) :
    valuesOf lines a = valuesOf lines b := by
  have names (line : ReadLine) : SameName a line.name ↔ SameName b line.name :=
    ⟨fun is => same.symm.trans is, fun is => same.trans is⟩
  rw [valuesOf, valuesOf]
  simp only [names]

theorem MadeOf.find {headers : List HttpHeader} {lines : List ReadLine} (made : MadeOf headers lines)
    {name : List UInt8} {p : HttpHeader → Bool} (named : ∀ h ∈ headers, p h = true ↔ SameName h.name name) :
    (headers.find? p).map HttpHeader.value =
      if valuesOf lines name = [] then none else some (storedValues (valuesOf lines name)) := by
  cases found : headers.find? p with
  | some h =>
    have member := List.mem_of_find?_eq_some found
    have same := (named h member).mp (List.find?_some found)
    have heard := made.heard h member
    rw [valuesOf_congr lines same] at heard
    rw [if_neg heard, Option.map_some, made.values h member, valuesOf_congr lines same]
  | none =>
    rw [if_pos]
    · rfl
    · rw [valuesOf, List.map_eq_nil_iff, List.filter_eq_nil_iff]
      intro line member same
      obtain ⟨h, inside, is⟩ := made.stored line member
      have other := List.find?_eq_none.mp found h inside
      exact other ((named h inside).mpr (is.trans (of_decide_eq_true same).symm))

theorem MadeOf.findHdr {msg : HttpMessage} {lines : List ReadLine} (made : MadeOf msg.headers lines)
    {name : List UInt8} {id : HdrId} (known : lookupHeader name = some id) :
    (httpmsgFindHdr msg id).map HttpHeader.value =
      if valuesOf lines name = [] then none else some (storedValues (valuesOf lines name)) := by
  apply made.find
  intro h member
  rw [decide_eq_true_eq, made.ids h member]
  exact lookupHeader_is known

theorem MadeOf.findHdrStr {msg : HttpMessage} {lines : List ReadLine} (made : MadeOf msg.headers lines)
    {name : List UInt8} (noNul : 0 ∉ name) :
    (httpmsgFindHdrStr msg name).map HttpHeader.value =
      if valuesOf lines name = [] then none else some (storedValues (valuesOf lines name)) := by
  apply made.find
  intro h member
  rw [decide_eq_true_eq, memptrCmpNocase_eq_zero noNul]

theorem MadeOf.right_iff {headers : List HttpHeader} {lines : List ReadLine} (made : MadeOf headers lines) :
    HeadersRight headers lines ↔ FirstFilled lines := by
  constructor
  · rintro ⟨-, right⟩ line member
    obtain ⟨h, inside, same⟩ := made.stored line member
    rw [← valuesOf_congr lines same, ← storedValues_right_iff, ← made.values h inside]
    exact right h inside
  · intro filled
    refine ⟨made.distinct, fun h member => ?_⟩
    obtain ⟨value, arrived⟩ := List.exists_mem_of_ne_nil _ (made.heard h member)
    obtain ⟨line, read, -⟩ := List.mem_map.mp arrived
    obtain ⟨inside, same⟩ := List.mem_filter.mp read
    rw [made.values h member, storedValues_right_iff, valuesOf_congr lines (of_decide_eq_true same)]
    exact filled line inside

/-- The headers after any part of a block, read after those that were there. -/
theorem parserParseHeaders_right_iff {p : HttpParser} {earlier : List ReadLine}
    (made : MadeOf p.msg.headers earlier) :
    HeadersRight (parserParseHeaders p).2.msg.headers (earlier ++ headerLines p.scanner) ↔
      FirstFilled (earlier ++ headerLines p.scanner) :=
  (parserParseHeaders_madeOf made).right_iff

def headersAhead (block : List UInt8) : HttpParser :=
  { parserRequestInit with position := .headers, scanner := scannerInit block }

theorem parserParseHeaders_right_joined :
    MadeOf [] [] ∧
      HeadersRight (parserParseHeaders (headersAhead (bytes "A: 1\r\na:\r\nA: 2\r\n\r\n"))).2.msg.headers
        ([] ++ headerLines (scannerInit (bytes "A: 1\r\na:\r\nA: 2\r\n\r\n"))) :=
  ⟨.nil, (parserParseHeaders_right_iff .nil).mpr (by decide +kernel)⟩

/-- An empty value in front stays there as a NUL. -/
theorem parserParseHeaders_not_right :
    ¬∀ (p : HttpParser) (earlier : List ReadLine), MadeOf p.msg.headers earlier →
      (parserParseHeaders p).1 = .ok ∨ (parserParseHeaders p).1 = .success →
        HeadersRight (parserParseHeaders p).2.msg.headers (earlier ++ headerLines p.scanner) := by
  intro right
  have filled := (parserParseHeaders_madeOf .nil).right_iff.mp
    (right (headersAhead (bytes "A:\r\nA: v\r\n\r\n")) [] .nil (.inl (by decide +kernel)))
  revert filled
  decide +kernel

/-! ### Every header list is made of lines -/

structure HeadersKept (headers : List HttpHeader) : Prop where
  distinct : headers.Pairwise fun a b => ¬SameName a.name b.name
  ids : ∀ h ∈ headers, h.nameId = (lookupHeader h.name).getD .unknown
  filled : ∀ h ∈ headers, h.value ≠ []

theorem MadeOf.kept {headers : List HttpHeader} {lines : List ReadLine} (made : MadeOf headers lines) :
    HeadersKept headers := by
  refine ⟨made.distinct, made.ids, fun h member => ?_⟩
  rw [made.values h member]
  cases values : valuesOf lines h.name with
  | nil => exact absurd values (made.heard h member)
  | cons first later =>
    apply List.append_ne_nil_of_left_ne_nil
    rw [firstValue]
    split_ifs with empty
    · simp
    · exact empty

/-- A header as the line that would have left it. -/
def HttpHeader.line (h : HttpHeader) : ReadLine := ⟨h.name, h.value⟩

theorem valuesOf_headers {headers : List HttpHeader} (distinct : headers.Pairwise fun a b => ¬SameName a.name b.name)
    {h : HttpHeader} (member : h ∈ headers) : valuesOf (headers.map HttpHeader.line) h.name = [h.value] := by
  induction headers with
  | nil => cases member
  | cons first headers ih =>
    obtain ⟨apart, later⟩ := List.pairwise_cons.mp distinct
    rw [List.map_cons, valuesOf, List.filter_cons]
    obtain rfl | behind := List.mem_cons.mp member
    · have none : (headers.map HttpHeader.line).filter (fun line => SameName h.name line.name) = [] := by
        rw [List.filter_eq_nil_iff, List.forall_mem_map]
        intro other inside same
        exact apart other inside (of_decide_eq_true same)
      rw [if_pos (decide_eq_true (show SameName h.name h.line.name from rfl)), none]
      rfl
    · rw [if_neg fun same => apart h behind (of_decide_eq_true same).symm]
      exact ih later behind

theorem HeadersKept.madeOf {headers : List HttpHeader} (kept : HeadersKept headers) :
    MadeOf headers (headers.map HttpHeader.line) := by
  refine ⟨kept.distinct, kept.ids, ?_, ?_, ?_⟩
  · intro h member
    rw [valuesOf_headers kept.distinct member]
    simp
  · intro h member
    rw [valuesOf_headers kept.distinct member, storedValues, firstValue, if_neg (kept.filled h member)]
    simp
  · rw [List.forall_mem_map]
    exact fun h member => ⟨h, member, rfl⟩

theorem updateFirst_names (p : HttpHeader → Bool) {f : HttpHeader → HttpHeader} (name : ∀ h, (f h).name = h.name)
    (headers : List HttpHeader) : (updateFirst p f headers).map HttpHeader.name = headers.map HttpHeader.name := by
  induction headers with
  | nil => rfl
  | cons h headers ih =>
    rw [updateFirst]
    split_ifs
    · rw [List.map_cons, List.map_cons, name]
    · rw [List.map_cons, List.map_cons, ih]

theorem updateFirst_forall {Q : HttpHeader → Prop} {p : HttpHeader → Bool} {f : HttpHeader → HttpHeader}
    (step : ∀ h, Q h → Q (f h)) {headers : List HttpHeader} (all : ∀ h ∈ headers, Q h) :
    ∀ h ∈ updateFirst p f headers, Q h := by
  induction headers with
  | nil => exact all
  | cons h headers ih =>
    obtain ⟨here, later⟩ := List.forall_mem_cons.mp all
    rw [updateFirst]
    split_ifs
    · exact List.forall_mem_cons.mpr ⟨step h here, later⟩
    · exact List.forall_mem_cons.mpr ⟨here, ih later⟩

theorem lowerValue_length (value : List UInt8) : (lowerValue value).length = value.length := by
  have inside := (List.takeWhile_prefix (fun c : UInt8 => decide (c ≠ 0)) (l := value)).length_le
  rw [lowerValue, List.length_append, List.length_map, List.length_drop]
  exact Nat.add_sub_cancel' inside

theorem HeadersKept.lower {msg : HttpMessage} (kept : HeadersKept msg.headers) :
    HeadersKept (lowerTransferEncoding msg).headers := by
  constructor
  · have names := updateFirst_names (fun h => h.nameId = .transferEncoding)
      (f := fun h => { h with value := lowerValue h.value }) (fun _ => rfl) msg.headers
    have distinct := kept.distinct
    rw [← List.pairwise_map (f := HttpHeader.name) (R := fun a b => ¬SameName a b), ← names,
      List.pairwise_map] at distinct
    exact distinct
  · exact updateFirst_forall (f := fun h => { h with value := lowerValue h.value }) (fun _ same => same) kept.ids
  · apply updateFirst_forall _ kept.filled
    intro h filled empty
    have length := lowerValue_length h.value
    rw [show lowerValue h.value = [] from empty] at length
    exact filled (List.length_eq_zero_iff.mp length.symm)

theorem parserParseHeaders_kept {p : HttpParser} (kept : HeadersKept p.msg.headers) :
    HeadersKept (parserParseHeaders p).2.msg.headers :=
  (parserParseHeaders_madeOf kept.madeOf).kept

@[simp] theorem storeVersion_headers (msg : HttpMessage) (scanned : List Int) :
    (storeVersion msg scanned).headers = msg.headers := by
  unfold storeVersion
  split <;> rfl

theorem parserParseRequestline_headers (res : Resolver) (p : HttpParser) :
    (parserParseRequestline res p).2.msg.headers = p.msg.headers := by
  simp only [parserParseRequestline, parserMatchRequestline]
  split_ifs
  · rfl
  · unfold parserParseSimpleGet
    split
    · rfl
    · split_ifs
      · rfl
      · dsimp only
        split <;> rfl
  · rfl
  · simp only [parserParseFullRequest]
    split
    · rfl
    · split
      · rfl
      · split_ifs <;> simp [parserFail, HttpParser.withScanner]

theorem parserParseResponseline_headers (p : HttpParser) :
    (parserParseResponseline p).2.msg.headers = p.msg.headers := by
  simp only [parserParseResponseline, parserMatchResponseline]
  split_ifs
  · rfl
  · rfl
  · simp only [parserParseStatusLine]
    split_ifs <;> simp [HttpParser.withScanner]

theorem parserEntityRound_kept {p : HttpParser} (kept : HeadersKept p.msg.headers) :
    HeadersKept (parserEntityRound p).2.msg.headers := by
  unfold parserEntityRound
  split
  · simp only [parserParseEntityUsingClen]
    split_ifs <;> exact kept
  · simp only [parserParseChunkyEntity, parserChunkSizeRead]
    split_ifs <;> exact kept
  · simp only [parserParseChunkyBody]
    split_ifs <;> exact kept
  · simp only [parserParseChunkyHeaders]
    split_ifs <;> exact parserParseHeaders_kept kept
  · exact kept
  · simp only [parserGetEntityReadMethod]
    split_ifs
    · exact kept
    · exact @HeadersKept.lower p.startEntity.msg kept
    · unfold readMethodOfLength
      split
      · exact @HeadersKept.lower p.startEntity.msg kept
      · split_ifs <;> exact @HeadersKept.lower p.startEntity.msg kept

theorem parserParseEntity_kept {p : HttpParser} (kept : HeadersKept p.msg.headers) :
    HeadersKept (parserParseEntity p).2.msg.headers := by
  fun_induction parserParseEntity p with
  | case1 p next round ih =>
    have step := parserEntityRound_kept kept
    rw [round] at step
    exact ih step
  | case2 p => exact parserEntityRound_kept kept

theorem parserRound_kept {res : Resolver} {p : HttpParser} (kept : HeadersKept p.msg.headers) :
    HeadersKept (parserRound res p).2.msg.headers := by
  unfold parserRound
  split
  · exact parserParseEntity_kept kept
  · exact parserParseHeaders_kept kept
  · rwa [parserParseRequestline_headers]
  · rwa [parserParseResponseline_headers]
  · exact kept

theorem parserParse_kept {res : Resolver} {p : HttpParser} (kept : HeadersKept p.msg.headers) :
    HeadersKept (parserParse res p).2.msg.headers := by
  fun_induction parserParse res p with
  | case1 p next round ih =>
    have step := @parserRound_kept res p kept
    rw [round] at step
    exact ih step
  | case2 p => exact parserRound_kept kept

/-- In every run the header list is one that lines have made. -/
theorem parserFeed_madeOf {res : Resolver} {p₀ : HttpParser} (start : p₀.Initial) (fragments : List (List UInt8)) :
    ∃ lines, MadeOf (parserFeed res p₀ fragments).2.msg.headers lines := by
  have kept : HeadersKept (parserFeed res p₀ fragments).2.msg.headers := by
    apply Pupnp.Stream.Consumer.feed_rule (K := fun r : ParseResult => HeadersKept r.2.msg.headers)
    · intro r q kept _
      exact parserParse_kept (p := r.2.extend q) kept
    · cases start <;> exact MadeOf.nil.kept
  exact ⟨_, kept.madeOf⟩

theorem parserFeed_madeOf_request : ∃ lines, MadeOf (parserFeed noHosts parserRequestInit
    [bytes "GET / HTTP/1.1\r\nA: v\r\n", bytes "a: w\r\n\r\n"]).2.msg.headers lines :=
  parserFeed_madeOf .request _

end Pupnp.Http
