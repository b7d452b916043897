import Pupnp.Web.SendMessage

/-!
What the web server sends behind the headers of a `GET` or `HEAD`, and what the headers say about it.
-/

namespace Pupnp.Web
open Pupnp.CString Pupnp.Path Pupnp.Uri Pupnp.Http

/-! ### Reads of a file -/

theorem hexDigits_length {k n : Nat} (positive : 0 < k) (small : n < 16 ^ k) : (hexDigits n).length ≤ k := by
  induction k generalizing n with
  | zero => omega
  | succ k ih =>
    rw [hexDigits]
    split
    next => simp
    next large =>
      have more : 0 < k := by
        by_contra none
        have zero : k = 0 := by omega
        subst zero
        omega
      have less : n / 16 < 16 ^ k := by
        rw [Nat.div_lt_iff_lt_mul (by decide), ← Nat.pow_succ]
        exact small
      have front := ih more less
      rw [List.length_append, List.length_singleton]
      omega

theorem sentPiece_small (instr : SendInstruction) {data : List UInt8}
    (small : data.length ≤ WEB_SERVER_BUF_SIZE) :
    sentPiece instr data = some (if instr.isChunkActive then chunkOf data else data) := by
  have digits : (hexDigits data.length).length ≤ 7 := by
    apply hexDigits_length (by decide)
    have size : WEB_SERVER_BUF_SIZE < 16 ^ 7 := by decide
    omega
  have fits : ¬CHUNK_HEADER_SIZE ≤ (hexDigits data.length ++ [CR, LF]).length := by
    rw [List.length_append, CHUNK_HEADER_SIZE]
    simp only [List.length_cons, List.length_nil]
    omega
  simp only [sentPiece, if_neg fits]
  split <;> rfl

def piecesText (instr : SendInstruction) (pieces : List (List UInt8)) : List UInt8 :=
  pieces.flatMap fun data => if instr.isChunkActive then chunkOf data else data

structure Pieces (text : List UInt8) (pieces : List (List UInt8)) : Prop where
  nonempty : ∀ data ∈ pieces, data ≠ []
  small : ∀ data ∈ pieces, data.length ≤ WEB_SERVER_BUF_SIZE
  whole : pieces.flatten = text

theorem Pieces.nil : Pieces [] [] := ⟨nofun, nofun, rfl⟩

theorem Pieces.cons {data text : List UInt8} {pieces : List (List UInt8)} (some : data ≠ [])
    (fits : data.length ≤ WEB_SERVER_BUF_SIZE) (later : Pieces text pieces) :
    Pieces (data ++ text) (data :: pieces) := by
  refine ⟨?_, ?_, by rw [List.flatten_cons, later.whole]⟩
  · intro d member
    rcases List.mem_cons.mp member with rfl | inside
    · exact some
    · exact later.nonempty d inside
  · intro d member
    rcases List.mem_cons.mp member with rfl | inside
    · exact fits
    · exact later.small d inside

section Reads
variable {σ : Type} {reader : FileReader σ} {instr : SendInstruction}

theorem sendFile_known (known : 0 ≤ instr.readSendSize) {dataBufSize amount : Nat} {file : σ}
    (room : 0 < amount → 0 < dataBufSize) (fits : dataBufSize ≤ WEB_SERVER_BUF_SIZE)
    (inside : amount ≤ (reader.rest file).length) :
    ∃ pieces, Pieces ((reader.rest file).take amount) pieces ∧
      sendFile reader instr dataBufSize amount file = (piecesText instr pieces, UPNP_E_SUCCESS) := by
  induction size : (reader.rest file).length using Nat.strongRecOn generalizing amount file with
  | _ size ih =>
    by_cases done : amount = 0
    · refine ⟨[], by rw [done]; exact .nil, ?_⟩
      rw [sendFile, if_pos (by omega)]
      rfl
    have more : 0 < amount := Nat.pos_of_ne_zero done
    set n := if (dataBufSize : Int) ≤ amount then dataBufSize else (amount : Int).toNat with n_eq
    have asked : 0 < n ∧ n ≤ amount ∧ n ≤ dataBufSize := by
      have bufSize := room more
      rw [n_eq]
      split_ifs <;> omega
    have split := reader.read_split file n
    have short := reader.read_size file n
    have rest : reader.rest file ≠ [] := List.ne_nil_of_length_pos (by omega)
    have some := reader.read_some file n asked.1 rest
    have length := congrArg List.length split
    have positive := List.length_pos_iff.mpr some
    rw [List.length_append] at length
    obtain ⟨pieces, later, sent⟩ := @ih (reader.rest (reader.read file n).2).length (by omega)
      (amount - (reader.read file n).1.length) (reader.read file n).2 (fun _ => room more) (by omega) rfl
    refine ⟨(reader.read file n).1 :: pieces, ?_, ?_⟩
    · have cut : (reader.rest file).take amount = (reader.read file n).1 ++
          (reader.rest (reader.read file n).2).take (amount - (reader.read file n).1.length) := by
        conv_lhs => rw [split]
        rw [List.take_append, List.take_of_length_le (by omega)]
      rw [cut]
      exact later.cons some (by omega)
    · have left : (amount : Int) - ((reader.read file n).1.length : Int) =
          ((amount - (reader.read file n).1.length : Nat) : Int) := by omega
      rw [sendFile, if_neg (by omega)]
      simp only [← n_eq, dif_neg some, sentPiece_small instr (show (reader.read file n).1.length ≤ _ by omega),
        if_neg (not_lt.mpr known), left, sent]
      rfl

theorem sendFile_toEnd (unknown : instr.readSendSize < 0) {dataBufSize : Nat} {file : σ}
    (room : 0 < dataBufSize) (fits : dataBufSize ≤ WEB_SERVER_BUF_SIZE) :
    ∃ pieces, Pieces (reader.rest file) pieces ∧
      (sendFile reader instr dataBufSize dataBufSize file).1 =
        piecesText instr pieces ++ (if instr.isChunkActive then lastChunk else []) := by
  induction size : (reader.rest file).length using Nat.strongRecOn generalizing file with
  | _ size ih =>
    have amount : ¬(dataBufSize : Int) = 0 := by omega
    have split := reader.read_split file dataBufSize
    have short := reader.read_size file dataBufSize
    by_cases some : (reader.read file dataBufSize).1 = []
    · have empty : reader.rest file = [] := by
        by_contra rest
        exact reader.read_some file dataBufSize room rest some
      refine ⟨[], by rw [empty]; exact .nil, ?_⟩
      rw [sendFile, if_neg amount]
      simp only [le_refl, if_true, dif_pos some]
      split <;> rfl
    · have length := congrArg List.length split
      have positive := List.length_pos_iff.mpr some
      rw [List.length_append] at length
      obtain ⟨pieces, later, sent⟩ := @ih (reader.rest (reader.read file dataBufSize).2).length (by omega)
        (reader.read file dataBufSize).2 rfl
      refine ⟨(reader.read file dataBufSize).1 :: pieces, ?_, ?_⟩
      · rw [split]
        exact later.cons some (by omega)
      · rw [sendFile, if_neg amount]
        simp only [le_refl, if_true, dif_neg some, if_pos unknown, sent,
          sentPiece_small instr (show (reader.read file dataBufSize).1.length ≤ _ by omega)]
        rw [← List.append_assoc]
        rfl

end Reads

/-! ### The instruction -/

/-- The text of the `Range` header; a later one replaces an earlier one. -/
def rangeText : List HttpHeader → Option (List UInt8)
  | [] => none
  | header :: headers =>
      (rangeText headers).or (if lookupHeader header.name = some .range then some (cstr header.value) else none)

def wantsTe (headers : List HttpHeader) : Bool := headers.any fun header => lookupHeader header.name = some .te

structure SelectsRange (fileLength : Int) (instr : SendInstruction) : Prop where
  inside : 0 ≤ instr.rangeOffset ∧ 0 ≤ instr.readSendSize ∧ instr.rangeOffset + instr.readSendSize ≤ fileLength
  header : instr.rangeHeader =
    contentRange instr.rangeOffset (instr.rangeOffset + instr.readSendSize - 1) fileLength

theorem selectRange_ok {instr : SendInstruction} {first last total size : Int}
    (ok : (selectRange instr first last total size).1 = HTTP_OK) :
    (selectRange instr first last total size).2 = { instr with
      rangeOffset := first
      readSendSize := size
      rangeHeader := contentRange first last total } := by
  unfold selectRange at ok ⊢
  dsimp only at ok ⊢
  split_ifs at ok ⊢ with long
  · cases ok
  · have short : (contentRange first last total).length ≤ 199 := by omega
    rw [List.take_of_length_le short]

structure RangeStep (fileLength : Int) (instr next : SendInstruction) : Prop where
  selects : SelectsRange fileLength next
  isRangeActive : next.isRangeActive = instr.isRangeActive
  isChunkActive : next.isChunkActive = instr.isChunkActive
  isVirtualFile : next.isVirtualFile = instr.isVirtualFile

theorem selectRange_step {instr : SendInstruction} {first last total size : Int}
    (ok : (selectRange instr first last total size).1 = HTTP_OK) (low : 0 ≤ first) (nonneg : 0 ≤ size)
    (inside : first + size ≤ total) (ends : last = first + size - 1) :
    RangeStep total instr (selectRange instr first last total size).2 := by
  rw [selectRange_ok ok]
  exact ⟨⟨⟨low, nonneg, inside⟩, by rw [ends]⟩, rfl, rfl, rfl⟩

theorem createRange_step {first last fileLength : Int} {instr : SendInstruction} (known : 0 ≤ fileLength)
    (ok : (createRange first last fileLength instr).1 = HTTP_OK) :
    RangeStep fileLength instr (createRange first last fileLength instr).2 := by
  unfold createRange at ok ⊢
  simp only [Bool.and_eq_true, decide_eq_true_eq] at ok ⊢
  split_ifs at ok ⊢ with outside between past open_ suffix long
  · cases ok
  · exact selectRange_step ok between.1.1 (by omega) (by omega) (by omega)
  · exact selectRange_step ok between.1.1 (by omega) (by omega) (by omega)
  · exact selectRange_step ok open_.1.1 (by omega) (by omega) (by omega)
  · exact selectRange_step ok le_rfl (by omega) (by omega) (by omega)
  · exact selectRange_step ok (by omega) (by omega) (by omega) (by omega)
  · cases ok

structure RangeSeen (fileLength : Int) (instr next : SendInstruction) : Prop where
  isChunkActive : next.isChunkActive = instr.isChunkActive
  isVirtualFile : next.isVirtualFile = instr.isVirtualFile
  ignored : next.isRangeActive = false → next.readSendSize = fileLength
  selects : next.isRangeActive = true → SelectsRange fileLength next

theorem createHTTPRangeResponseHeader_seen {text : List UInt8} {fileLength : Int} {instr : SendInstruction}
    (ok : (createHTTPRangeResponseHeader text fileLength instr).1 = HTTP_OK) :
    RangeSeen fileLength instr (createHTTPRangeResponseHeader text fileLength instr).2 := by
  unfold createHTTPRangeResponseHeader at ok ⊢
  dsimp only at ok ⊢
  split at ok
  next b equals isBytes isEquals =>
      split_ifs at ok ⊢ with unknown all
      · exact ⟨rfl, rfl, fun _ => rfl, nofun⟩
      · cases ok
      · split at ok
        next first last found =>
            have step := createRange_step (Int.not_lt.mp unknown) ok
            refine ⟨step.isChunkActive, step.isVirtualFile, fun off => ?_, fun _ => step.selects⟩
            have on := step.isRangeActive.symm.trans off
            cases on
        next none => cases ok
  next => cases ok

theorem createRange_size {first last fileLength : Int} {instr instr' : SendInstruction}
    (same : instr.readSendSize = instr'.readSendSize) :
    (createRange first last fileLength instr).2.readSendSize =
      (createRange first last fileLength instr').2.readSendSize := by
  have select (first last size : Int) :
      (selectRange instr first last fileLength size).2.readSendSize =
        (selectRange instr' first last fileLength size).2.readSendSize := by
    unfold selectRange
    dsimp only
    split <;> rfl
  unfold createRange
  split_ifs
  · exact same
  · exact select _ _ _
  · exact select _ _ _
  · exact select _ _ _
  · exact select _ _ _
  · exact select _ _ _
  · exact same

theorem createHTTPRangeResponseHeader_size (text : List UInt8) (fileLength : Int)
    (instr instr' : SendInstruction) :
    (createHTTPRangeResponseHeader text fileLength instr).2.readSendSize =
      (createHTTPRangeResponseHeader text fileLength instr').2.readSendSize := by
  unfold createHTTPRangeResponseHeader
  dsimp only
  split
  · split_ifs
    · rfl
    · rfl
    · split
      · exact createRange_size rfl
      · rfl
  · rfl

structure HeadersSeen (fileLength : Int) (headers : List HttpHeader) (instr next : SendInstruction) :
    Prop where
  isChunkActive : next.isChunkActive = (instr.isChunkActive || wantsTe headers)
  isVirtualFile : next.isVirtualFile = instr.isVirtualFile
  plain : rangeText headers = none → next.isRangeActive = instr.isRangeActive ∧
    next.readSendSize = instr.readSendSize ∧ next.rangeOffset = instr.rangeOffset ∧
    next.rangeHeader = instr.rangeHeader
  size : ∀ text, rangeText headers = some text → ∀ blank,
    next.readSendSize = (createHTTPRangeResponseHeader text fileLength blank).2.readSendSize
  ignored : ∀ text, rangeText headers = some text → next.isRangeActive = false →
    next.readSendSize = fileLength
  selects : ∀ text, rangeText headers = some text → next.isRangeActive = true →
    SelectsRange fileLength next

theorem rangeText_append (before after : List HttpHeader) :
    rangeText (before ++ after) = (rangeText after).or (rangeText before) := by
  induction before with
  | nil => rw [List.nil_append, rangeText, Option.or_none]
  | cons header before ih => rw [List.cons_append, rangeText, rangeText, ih, Option.or_assoc]

theorem HeadersSeen.trans {fileLength : Int} {before after : List HttpHeader}
    {instr middle next : SendInstruction} (first : HeadersSeen fileLength before instr middle)
    (second : HeadersSeen fileLength after middle next) :
    HeadersSeen fileLength (before ++ after) instr next := by
  have chunk : next.isChunkActive = (instr.isChunkActive || wantsTe (before ++ after)) := by
    rw [second.isChunkActive, first.isChunkActive, Bool.or_assoc]
    simp [wantsTe]
  have virtual := second.isVirtualFile.trans first.isVirtualFile
  have texts := rangeText_append before after
  cases later : rangeText after with
  | some text =>
    rw [later, Option.some_or] at texts
    refine ⟨chunk, virtual, ?_, ?_, ?_, ?_⟩ <;> rw [texts]
    · nofun
    · rintro _ ⟨⟩
      exact second.size text later
    · rintro _ ⟨⟩
      exact second.ignored text later
    · rintro _ ⟨⟩
      exact second.selects text later
  | none =>
    obtain ⟨active, size, offset, header⟩ := second.plain later
    rw [later, Option.none_or] at texts
    refine ⟨chunk, virtual, ?_, ?_, ?_, ?_⟩ <;> rw [texts]
    · rw [active, size, offset, header]
      exact first.plain
    · rw [size]
      exact first.size
    · rw [active, size]
      exact first.ignored
    · intro text here
      rw [active]
      intro on
      have selects := first.selects text here on
      exact ⟨by rw [offset, size]; exact selects.inside, by rw [offset, size, header]; exact selects.header⟩

theorem checkOtherHTTPHeader_seen {fileLength : Int} {header : HttpHeader} {instr : SendInstruction}
    (ok : (checkOtherHTTPHeader fileLength header instr).1 = HTTP_OK) :
    HeadersSeen fileLength [header] instr (checkOtherHTTPHeader fileLength header instr).2 := by
  by_cases range : lookupHeader header.name = some .range
  · have text : rangeText [header] = some (cstr header.value) := by simp [rangeText, range]
    have noTe : wantsTe [header] = false := by simp [wantsTe, range]
    simp only [checkOtherHTTPHeader, range] at ok ⊢
    have seen := createHTTPRangeResponseHeader_seen ok
    refine ⟨by rw [noTe, Bool.or_false]; exact seen.isChunkActive, seen.isVirtualFile, ?_, ?_, ?_, ?_⟩ <;>
      rw [text]
    · nofun
    · rintro _ ⟨⟩ blank
      exact createHTTPRangeResponseHeader_size _ _ _ _
    · exact fun _ _ => seen.ignored
    · exact fun _ _ => seen.selects
  · have text : rangeText [header] = none := by simp [rangeText, range]
    have plain {next : SendInstruction}
        (chunk : next.isChunkActive = (instr.isChunkActive || wantsTe [header]))
        (virtual : next.isVirtualFile = instr.isVirtualFile)
        (kept : next.isRangeActive = instr.isRangeActive ∧ next.readSendSize = instr.readSendSize ∧
          next.rangeOffset = instr.rangeOffset ∧ next.rangeHeader = instr.rangeHeader) :
        HeadersSeen fileLength [header] instr next := by
      refine ⟨chunk, virtual, fun _ => kept, ?_, ?_, ?_⟩ <;> rw [text] <;> nofun
    unfold checkOtherHTTPHeader
    split
    next te => exact plain (by simp [wantsTe, te]) rfl ⟨rfl, rfl, rfl, rfl⟩
    next length => exact plain (by simp [wantsTe, length]) rfl ⟨rfl, rfl, rfl, rfl⟩
    next here => exact absurd here range
    next language => exact plain (by simp [wantsTe, language]) rfl ⟨rfl, rfl, rfl, rfl⟩
    next noTe _ _ _ =>
      have other : lookupHeader header.name ≠ some .te := noTe
      exact plain (by simp [wantsTe, other]) rfl ⟨rfl, rfl, rfl, rfl⟩

theorem checkOtherHTTPHeaders_seen {fileLength : Int} {headers : List HttpHeader} {instr : SendInstruction}
    (ok : (checkOtherHTTPHeaders fileLength headers instr).1 = HTTP_OK) :
    HeadersSeen fileLength headers instr (checkOtherHTTPHeaders fileLength headers instr).2 := by
  induction headers generalizing instr with
  | nil =>
    exact ⟨by simp [wantsTe, checkOtherHTTPHeaders], rfl, fun _ => ⟨rfl, rfl, rfl, rfl⟩, nofun, nofun,
      nofun⟩
  | cons header headers ih =>
    rw [checkOtherHTTPHeaders] at ok ⊢
    by_cases failed : (checkOtherHTTPHeader fileLength header instr).1 ≠ HTTP_OK
    · rw [if_pos failed] at ok
      exact absurd ok failed
    · rw [if_neg failed] at ok ⊢
      exact (checkOtherHTTPHeader_seen (not_not.mp failed)).trans (ih ok)

/-! ### What the headers announce -/

def announcedLength (parts : List HeaderPart) : Option Int :=
  parts.findSome? fun part => match part with
    | .N bignum => some bignum
    | _ => none

def announcedChunks (parts : List HeaderPart) : Bool :=
  parts.any fun part => match part with
    | .K => true
    | _ => false

def announcedRange (parts : List HeaderPart) : Option (List UInt8) :=
  parts.findSome? fun part => match part with
    | .G instr => some instr.rangeHeader
    | _ => none

/-- The bytes of a resource that a `Content-Range` line, or none, announces. -/
inductive Announces (content : List UInt8) : Option (List UInt8) → List UInt8 → Prop
  | whole : Announces content none content
  | range (first last : Int) : Announces content (some (contentRange first last content.length))
      ((content.drop first.toNat).take (last - first + 1).toNat)

/-- A body that is framed as these headers of a response to a `GET` say and decodes to what they announce
of the resource. -/
def FramedAs (parts : List HeaderPart) (content body : List UInt8) : Prop :=
  ∃ decoded, Announces content (announcedRange parts) decoded ∧
    if announcedChunks parts then
      ∃ chunks tail, ChunkedBody body chunks tail ∧ trailersEnd tail = some [] ∧ chunks.flatten = decoded
    else (∀ n, announcedLength parts = some n → (body.length : Int) = n) ∧ body = decoded

def Framed (req : HttpMessage) (parts : List HeaderPart) (content body : List UInt8) : Prop :=
  if req.method = .head then body = [] else FramedAs parts content body

section Parts
variable (instr : SendInstruction) (details : FileDetails)

theorem announcedChunks_response : announcedChunks (responseParts instr details) = instr.isChunkActive := by
  cases range : instr.isRangeActive <;> cases chunks : instr.isChunkActive <;>
    simp [responseParts, announcedChunks, datedParts, range, chunks]
  split <;> simp

theorem announcedRange_response : announcedRange (responseParts instr details) =
    if instr.isRangeActive then some instr.rangeHeader else none := by
  cases range : instr.isRangeActive <;> cases chunks : instr.isChunkActive <;>
    simp [responseParts, announcedRange, datedParts, range, chunks]
  split <;> simp

theorem announcedLength_response (plain : instr.isChunkActive = false) :
    announcedLength (responseParts instr details) =
      if instr.isRangeActive || 0 ≤ instr.readSendSize then some instr.readSendSize else none := by
  cases range : instr.isRangeActive <;> simp [responseParts, announcedLength, datedParts, range, plain]
  split <;> simp

end Parts

/-! ### Bodies -/

theorem not_chunkedBody_pieces {pieces : List (List UInt8)} (nonempty : ∀ data ∈ pieces, data ≠ [])
    (small : ∀ data ∈ pieces, data.length < 2 ^ 32) (chunks : List (List UInt8)) (tail : List UInt8) :
    ¬ChunkedBody (pieces.flatMap chunkOf) chunks tail := by
  induction pieces generalizing chunks with
  | nil =>
    have empty : chunkSizeLine [] = none := by decide
    intro body
    cases body with
    | last line => exact absurd line (by rw [List.flatMap_nil, empty]; nofun)
    | chunk line => exact absurd line (by rw [List.flatMap_nil, empty]; nofun)
  | cons data pieces ih =>
    have fits := small data List.mem_cons_self
    have known := @chunkSizeLine_hexDigits data.length (by omega)
      (data ++ CR :: LF :: pieces.flatMap chunkOf)
    have text : (data :: pieces).flatMap chunkOf = hexDigits data.length ++ CR :: LF ::
        (data ++ CR :: LF :: pieces.flatMap chunkOf) := by simp [chunkOf]
    intro body
    rw [text] at body
    cases body with
    | last line =>
      obtain ⟨size, -⟩ := Prod.mk.inj (Option.some.inj (known.symm.trans line))
      have empty : data = [] := List.length_eq_zero_iff.mp (by exact_mod_cast size)
      exact nonempty data List.mem_cons_self empty
    | @chunk _ data' ending later _ chunks line some ends more =>
      obtain ⟨size, split⟩ := Prod.mk.inj (Option.some.inj (known.symm.trans line))
      have sizes : data.length = data'.length := by exact_mod_cast size
      obtain ⟨-, behind⟩ := List.append_inj split sizes
      rw [← behind, chunkEnd_crlf] at ends
      obtain rfl := Option.some.inj ends
      exact ih (fun d member => nonempty d (List.mem_cons_of_mem data member))
        (fun d member => small d (List.mem_cons_of_mem data member)) chunks more

theorem not_chunkedBody_markup {text : List UInt8} (markup : text.head? = some 60)
    (chunks : List (List UInt8)) (tail : List UInt8) : ¬ChunkedBody text chunks tail := by
  have noSize : chunkSizeLine text = none := by
    obtain ⟨rest, rfl⟩ := List.head?_eq_some_iff.mp markup
    have separator : isIdentifierChar 60 = false := by decide
    have none : wholeNumber 16 [] = none := by decide
    simp only [chunkSizeLine, List.takeWhile_cons, separator, Bool.false_eq_true, if_false, none,
      Option.map_none, ite_self]
  intro body
  cases body with
  | last line => exact absurd line (by rw [noSize]; simp)
  | chunk line => exact absurd line (by rw [noSize]; simp)

theorem piecesText_plain {instr : SendInstruction} (plain : instr.isChunkActive = false)
    (pieces : List (List UInt8)) : piecesText instr pieces = pieces.flatten := by
  simp [piecesText, plain, List.flatMap_def]

theorem piecesText_chunks {instr : SendInstruction} (chunks : instr.isChunkActive = true)
    (pieces : List (List UInt8)) : piecesText instr pieces = pieces.flatMap chunkOf := by
  simp [piecesText, chunks]

theorem Pieces.below {text : List UInt8} {pieces : List (List UInt8)} (cut : Pieces text pieces) :
    ∀ data ∈ pieces, data.length < 2 ^ 32 := by
  intro data member
  have size := cut.small data member
  have buffer : WEB_SERVER_BUF_SIZE < 2 ^ 32 := by decide
  omega

/-! ### Responses -/

/-- The resource behind a document. A length that is known is the right one, and the alias document is
printed XML, as its only writer stores it. -/
inductive Serves {σ : Type} (contents : WebContents σ) (document : Document) : List UInt8 → Prop
  | alias_ (source : document.source = .xmlAlias)
      (length : document.finfo.fileLength = contents.aliasDoc.length)
      (markup : contents.aliasDoc.head? = some 60) : Serves contents document contents.aliasDoc
  | file (source : document.source ≠ .xmlAlias) (file : σ)
      (opened : contents.openFile (document.source = .virtualDir) (document.filename.getD []) = some file)
      (accurate : 0 ≤ document.finfo.fileLength →
        document.finfo.fileLength = (contents.reader.rest file).length) :
      Serves contents document (contents.reader.rest file)

/-- Requests whose response is framed as it says: no chunks of a document whose length is known, and no
proper range of the alias document. -/
def FramingFits (req : HttpMessage) (document : Document) : Prop :=
  req.method = .head ∨
    (wantsTe req.headers = true → document.finfo.fileLength < 0) ∧
      (document.source = .xmlAlias → ∀ text, rangeText req.headers = some text →
        (createHTTPRangeResponseHeader text document.finfo.fileLength
          (newInstruction document)).2.readSendSize = document.finfo.fileLength)

structure Instructed (req : HttpMessage) (document : Document) (instr : SendInstruction) : Prop where
  virtual : instr.isVirtualFile = decide (document.source = .virtualDir)
  chunks : instr.isChunkActive = (wantsTe req.headers ||
    (decide (document.source = .virtualDir) &&
      decide (document.finfo.fileLength = Web.UPNP_USING_CHUNKED)))
  whole : instr.isRangeActive = false → instr.readSendSize = document.finfo.fileLength
  selects : instr.isRangeActive = true → SelectsRange document.finfo.fileLength instr
  asked : instr.isRangeActive = true → ∃ text, rangeText req.headers = some text
  size : ∀ text, rangeText req.headers = some text → instr.readSendSize =
    (createHTTPRangeResponseHeader text document.finfo.fileLength (newInstruction document)).2.readSendSize

theorem HeadersSeen.instructed {req : HttpMessage} {document : Document} {seen instr : SendInstruction}
    (headers : HeadersSeen document.finfo.fileLength req.headers (newInstruction document) seen)
    (same : instr = { seen with
      isChunkActive := seen.isChunkActive || (decide (document.source = .virtualDir) &&
        decide (document.finfo.fileLength = Web.UPNP_USING_CHUNKED)) }) :
    Instructed req document instr := by
  subst same
  refine ⟨headers.isVirtualFile, ?_, ?_, ?_, ?_, fun text here => headers.size text here _⟩
  · rw [headers.isChunkActive]
    rfl
  · intro off
    cases range : rangeText req.headers with
    | none => exact (headers.plain range).2.1
    | some text => exact headers.ignored text range off
  · intro on
    cases range : rangeText req.headers with
    | none => exact absurd ((headers.plain range).1.symm.trans on) (by simp [newInstruction])
    | some text =>
      have selects := headers.selects text range on
      exact ⟨selects.inside, selects.header⟩
  · intro on
    cases range : rangeText req.headers with
    | none => exact absurd ((headers.plain range).1.symm.trans on) (by simp [newInstruction])
    | some text => exact ⟨text, rfl⟩

theorem prepareResponse_ok {details : Source → Option (List UInt8) → FileDetails} {req : HttpMessage}
    {document : Document} {prepared : Prepared} (notSimple : req.method ≠ .simpleGet)
    (accepted : prepareResponse details req document = .ok prepared) :
    Instructed req document prepared.instr ∧ prepared.rtype = responseType req document.source ∧
      prepared.filename = document.filename ∧
      prepared.headers = responseParts prepared.instr (details document.source document.filename) := by
  unfold prepareResponse at accepted
  dsimp only at accepted
  split_ifs at accepted with failed old
  · obtain rfl := Except.ok.inj accepted
    exact ⟨(checkOtherHTTPHeaders_seen (not_not.mp failed)).instructed rfl, rfl, rfl, rfl⟩

/-- What follows the header block on the wire. -/
def sentBody {σ : Type} (contents : WebContents σ) (prepared : Prepared) : List UInt8 :=
  (webServerCallback contents prepared).1.drop (headerText contents.env prepared).length

section Bodies
variable {σ : Type} {contents : WebContents σ} {req : HttpMessage} {document : Document}
  {prepared : Prepared}

theorem webServerCallback_body (notPost : prepared.rtype ≠ .post) :
    (webServerCallback contents prepared).1 = headerText contents.env prepared ++ sentBody contents prepared := by
  have split (body : List UInt8 × Int) : (headerText contents.env prepared ++ body.1, body.2).1 =
      headerText contents.env prepared ++ ((headerText contents.env prepared ++ body.1, body.2).1.drop
        (headerText contents.env prepared).length) := by
    rw [List.drop_left]
  unfold sentBody webServerCallback
  cases kind : prepared.rtype with
  | post => exact absurd kind notPost
  | filedoc => exact split _
  | xmldoc => exact split _
  | headers => exact split _
  | webdoc => exact split _

theorem sentBody_headers (kind : prepared.rtype = .headers) : sentBody contents prepared = [] := by
  simp [sentBody, webServerCallback, kind, httpSendMessage]

theorem sentBody_alias (kind : prepared.rtype = .xmldoc) :
    sentBody contents prepared = contents.aliasDoc := by
  simp [sentBody, webServerCallback, kind, httpSendMessage]

theorem sentBody_file (kind : prepared.rtype = .filedoc ∨ prepared.rtype = .webdoc) {file : σ}
    (opened : contents.openFile prepared.instr.isVirtualFile (prepared.filename.getD []) = some file) :
    sentBody contents prepared = (sendFile contents.reader prepared.instr (sendAmount prepared.instr).2
      (sendAmount prepared.instr).1 (if prepared.instr.isRangeActive then
        contents.reader.seek file prepared.instr.rangeOffset.toNat else file)).1 := by
  rcases kind with kind | kind <;>
    simp [sentBody, webServerCallback, kind, httpSendMessage, sendNamedFile, opened]

theorem announces_instructed {instr : SendInstruction} (instructed : Instructed req document instr)
    {content : List UInt8} (length : instr.isRangeActive = true → document.finfo.fileLength = content.length) :
    Announces content (if instr.isRangeActive then some instr.rangeHeader else none)
      (if instr.isRangeActive then
        (content.drop instr.rangeOffset.toNat).take instr.readSendSize.toNat
      else content) := by
  cases range : instr.isRangeActive with
  | false => exact .whole
  | true =>
    have selects := instructed.selects range
    have size : instr.rangeOffset + instr.readSendSize - 1 -
        instr.rangeOffset + 1 = instr.readSendSize := by omega
    have announced := @Announces.range content instr.rangeOffset
      (instr.rangeOffset + instr.readSendSize - 1)
    rw [size] at announced
    rw [if_pos rfl, if_pos rfl, selects.header, length range]
    exact announced

end Bodies

end Pupnp.Web
