import Pupnp.Web.ProcessRequest
import Pupnp.Http.Entity

/-!
Where the file names of the web server lie. Dot removal stops at the first `?` or
`#` of the decoded URI, but the file name is built from all of it: a name stays
below the document root exactly when no `..` segment stands behind that byte.
-/

namespace Pupnp.Web
open Pupnp.CString Pupnp.Path Pupnp.Uri Pupnp.Http

/-- What follows the path in the decoded URI, its first `?` or `#` included. -/
def behindPath (uri : List UInt8) : List UInt8 := uri.dropWhile fun c => c ≠ 63 && c ≠ 35

def decodedUri (req : HttpMessage) : List UInt8 := cstr (percentDecode (pathquery req))

theorem takeWhile_dropWhile {p q : UInt8 → Bool} (stops : ∀ c, q c = false → p c = false)
    (s : List UInt8) : (s.dropWhile p).takeWhile q = (s.takeWhile q).dropWhile p := by
  induction s with
  | nil => rfl
  | cons c rest step =>
    cases passed : p c with
    | true =>
      have kept : q c = true := by
        by_contra cut
        rw [stops c (by simpa using cut)] at passed
        contradiction
      simp [passed, kept, step]
    | false => cases cut : q c <;> simp [passed, cut]

theorem cstr_zeros (s : List UInt8) (n : Nat) : cstr (s ++ List.replicate n 0) = cstr s := by
  induction s with
  | nil => cases n <;> simp [cstr, List.replicate_succ]
  | cons c rest step =>
    simp only [cstr, List.cons_append, List.takeWhile_cons] at step ⊢
    rw [step]

theorem dropWhile_notEndPath {s : List UInt8} (noNul : ∀ c ∈ s, c ≠ 0) :
    s.dropWhile notEndPath = behindPath s := by
  induction s with
  | nil => rfl
  | cons c rest step =>
    have same : notEndPath c = (decide (c ≠ 63) && decide (c ≠ 35)) := by
      have stays := noNul c (by simp)
      by_cases query : c = 63 <;> by_cases fragment : c = 35 <;>
        simp [notEndPath, isEndPath, query, fragment, stays]
    have below := step fun d member => noNul d (by simp [member])
    simp only [behindPath, List.dropWhile_cons, same] at below ⊢
    rw [below]

/-- The request document: a path without `..` segments, then the rest of the decoded URI. -/
theorem requestDocument_split (path : List UInt8) :
    ∃ clean, requestDocument path = clean ++ behindPath (cstr (percentDecode path)) ∧
      ¬ HasDotDot clean := by
  obtain ⟨freed, decoded, size⟩ := removeEscapedChars_eq path
  have buffer : (removeEscapedChars (path ++ [0]) path.length).1.take path.length =
      percentDecode path ++ List.replicate freed 0 := by
    rw [decoded, ← size]
    simp [List.take_append]
  obtain ⟨clean, removed, noDots, inPath⟩ :=
    removeDots_split (removeEscapedChars (path ++ [0]) path.length).1 path.length
  have kept : ∀ c ∈ clean, (decide (c ≠ 0)) = true := by
    intro c member
    have := inPath c member
    simp only [isEndPath, Bool.or_eq_false_iff, decide_eq_false_iff_not] at this
    simpa using this.2
  refine ⟨clean, ?_, noDots⟩
  calc requestDocument path
      = clean ++ cstr ((percentDecode path ++ List.replicate freed 0).dropWhile notEndPath) := by
        rw [requestDocument, removed, buffer, cstr, List.takeWhile_append_of_pos kept, cstr]
    _ = clean ++ (cstr (percentDecode path)).dropWhile notEndPath := by
        rw [cstr, takeWhile_dropWhile, ← cstr, cstr_zeros]
        intro c nul
        have : c = 0 := by simpa using nul
        rw [this]
        rfl
    _ = clean ++ behindPath (cstr (percentDecode path)) := by
        rw [dropWhile_notEndPath fun c member zero => cstr_noNul _ (zero ▸ member)]

theorem requestDocument_hasDotDot (path : List UInt8) :
    HasDotDot (requestDocument path) ↔ HasDotDot (behindPath (cstr (percentDecode path))) := by
  obtain ⟨clean, split, noDots⟩ := requestDocument_split path
  have head := dropWhile_head (fun c => c ≠ 63 && c ≠ 35) (cstr (percentDecode path))
  rw [split]
  cases shape : behindPath (cstr (percentDecode path)) with
  | nil =>
    rw [List.append_nil]
    exact iff_of_false noDots not_hasDotDot_nil
  | cons c rest =>
    rw [behindPath] at shape
    have stopped := head c (by rw [shape]; rfl)
    have marker : c = 63 ∨ c = 35 := by
      by_contra neither
      simp_all
    apply hasDotDot_append _ _ clean rest noDots
    · obtain rfl | rfl := marker <;> decide
    · obtain rfl | rfl := marker <;> decide

theorem indexFile_trimmed (path : List UInt8) :
    indexFile (trimSlashes path) = trimSlashes path ++ bytes "/index.html" := by
  rw [indexFile, if_neg]
  intro last
  have nonempty : trimSlashes path ≠ [] := by
    intro empty
    simp [empty] at last
  rw [List.getLast?_eq_some_getLast nonempty] at last
  apply List.rdropWhile_last_not (· = SLASH) path nonempty
  exact decide_eq_true (Option.some.inj last)

theorem rootFile_below_iff (root : List UInt8) {document : List UInt8}
    (slashed : charAt document 0 = SLASH) {name : List UInt8}
    (made : name = trimSlashes (root ++ document) ∨
      name = indexFile (trimSlashes (root ++ document))) :
    Below root name ↔ ¬ HasDotDot document := by
  have appended : Appended document := by
    cases document with
    | nil => exact absurd slashed (by decide)
    | cons c rest => exact Or.inr (congrArg some slashed)
  obtain ⟨path, trimmed, set, same⟩ := trimSlashes_below root appended
  obtain rfl | rfl := made
  · rw [trimmed, below_iff set, same]
  · have index : bytes "/index.html" = SLASH :: bytes "index.html" := by decide
    have set' : Appended (path ++ bytes "/index.html") := by
      obtain rfl | headed := set
      · exact Or.inr rfl
      · cases path with
        | nil => exact absurd headed (by simp)
        | cons c rest => exact Or.inr headed
    rw [indexFile_trimmed, trimmed, List.append_assoc, below_iff set', index, hasDotDot_slash,
      or_iff_left (by decide), same]

def Lookup.Names (lookup : Lookup) (names : List (List UInt8)) : Prop :=
  lookup.asked ⊆ names ∧ ∀ name finfo, lookup.found = .ok (name, finfo) → name ∈ names

theorem lookupFile_names (getInfo : List UInt8 → Option FileInfo) (filename : List UInt8) :
    (lookupFile getInfo filename).Names [filename, indexFile filename] := by
  have failed : ∀ code, ∀ asked ⊆ [filename, indexFile filename],
      Lookup.Names ⟨asked, .error code⟩ [filename, indexFile filename] :=
    fun code asked inside => ⟨inside, nofun⟩
  have found : ∀ name ∈ [filename, indexFile filename], ∀ finfo,
      ∀ asked ⊆ [filename, indexFile filename],
      Lookup.Names ⟨asked, .ok (name, finfo)⟩ [filename, indexFile filename] := by
    intro name member finfo asked inside
    refine ⟨inside, ?_⟩
    intro other info same
    cases same
    exact member
  unfold lookupFile
  split
  · exact failed _ _ (by simp)
  · split
    · simp only
      split
      · exact failed _ _ (by simp)
      · split
        · exact failed _ _ (by simp)
        · split
          · exact found _ (by simp) _ _ (by simp)
          · exact failed _ _ (by simp)
    · split
      · exact found _ (by simp) _ _ (by simp)
      · exact failed _ _ (by simp)

theorem locate_names (req : HttpMessage) (getInfo : List UInt8 → Option FileInfo)
    (filename : List UInt8) : (locate req getInfo filename).Names [filename, indexFile filename] := by
  unfold locate
  split
  · refine ⟨List.nil_subset _, ?_⟩
    intro name finfo same
    cases same
    simp
  · exact lookupFile_names getInfo filename

theorem respond_files (server : WebServer) (req : HttpMessage) (source : Source)
    (filename : Option (List UInt8)) (finfo : FileInfo) (asked : List (List UInt8)) :
    (respond server req source filename finfo asked).asked = asked ∧
      (respond server req source filename finfo asked).filename = filename ∧
      (respond server req source filename finfo asked).source = some source := by
  simp only [respond]
  split_ifs <;> exact ⟨rfl, rfl, rfl⟩

def Answer.Files (answer : Answer) (names : List (List UInt8)) : Prop :=
  answer.asked ⊆ names ∧
    (answer.source = some .documentRoot → ∀ name ∈ answer.filename, name ∈ names)

theorem processRequest_files (server : WebServer) (req : HttpMessage) :
    (processRequest server req).Files
      [trimSlashes (server.gDocumentRootDir ++ requestDocument (pathquery req)),
        indexFile (trimSlashes (server.gDocumentRootDir ++ requestDocument (pathquery req)))] := by
  generalize names : [_, _] = expected
  have none : ∀ code rtype source filename, source ≠ some .documentRoot →
      Answer.Files ⟨code, rtype, source, filename, []⟩ expected :=
    fun code rtype source filename other => ⟨List.nil_subset _, fun same => absurd same other⟩
  have elsewhere : ∀ source filename finfo, source ≠ .documentRoot →
      (respond server req source filename finfo []).Files expected := by
    intro source filename finfo other
    obtain ⟨asked, -, from_⟩ := respond_files server req source filename finfo []
    refine ⟨by rw [asked]; exact List.nil_subset _, fun same => ?_⟩
    rw [from_] at same
    exact absurd (Option.some.inj same) other
  unfold processRequest
  simp only
  split
  · exact none _ _ _ _ nofun
  · split
    · split
      · exact none _ _ _ _ (by decide)
      · exact elsewhere _ _ _ (by decide)
    · split
      · exact elsewhere _ _ _ (by decide)
      · split
        · exact none _ _ _ _ nofun
        · obtain ⟨asked, found⟩ := locate_names req (getFileInfo server)
            (trimSlashes (server.gDocumentRootDir ++ requestDocument (pathquery req)))
          rw [names] at asked found
          split
          · refine ⟨asked, fun _ name member => ?_⟩
            cases member
            rw [← names]
            simp
          · next name finfo same =>
            obtain ⟨kept, file, -⟩ := respond_files server req .documentRoot (some name) finfo
              (locate req (getFileInfo server)
                (trimSlashes (server.gDocumentRootDir ++ requestDocument (pathquery req)))).asked
            refine ⟨by rw [kept]; exact asked, fun _ other member => ?_⟩
            rw [file] at member
            cases member
            exact found name finfo same

/-- Every regular file the server opens goes by a name made from the root and the document. -/
theorem openedFiles_made {server : WebServer} {req : HttpMessage} {name : List UInt8}
    (opened : name ∈ openedFiles server req) :
    charAt (requestDocument (pathquery req)) 0 = SLASH ∧
      (name = trimSlashes (server.gDocumentRootDir ++ requestDocument (pathquery req)) ∨
        name = indexFile
          (trimSlashes (server.gDocumentRootDir ++ requestDocument (pathquery req)))) := by
  constructor
  · by_contra unslashed
    simp [openedFiles, processRequest, unslashed] at opened
  · obtain ⟨asked, file⟩ := processRequest_files server req
    unfold openedFiles at opened
    simp only [Bool.and_eq_true, Bool.or_eq_true, decide_eq_true_eq, List.mem_append] at opened
    obtain mentioned | body := opened
    · simpa using asked mentioned
    · split at body
      case isTrue used =>
        exact by simpa using file used.1 name (by simpa using body)
      case isFalse => simp at body

/-- A regular file the server opens lies below the document root by its name exactly when the
decoded URI has no `..` segment behind its first `?` or `#`. -/
theorem openedFiles_below_iff (server : WebServer) (req : HttpMessage) (name : List UInt8)
    (opened : name ∈ openedFiles server req) :
    Below server.gDocumentRootDir name ↔ ¬ HasDotDot (behindPath (decodedUri req)) := by
  obtain ⟨slashed, made⟩ := openedFiles_made opened
  rw [rootFile_below_iff server.gDocumentRootDir slashed made, requestDocument_hasDotDot]
  rfl

/-- A server for `/srv/www` in whose file system every name is a file of ten bytes. -/
def plainServer : WebServer :=
  { gDocumentRootDir := bytes "/srv/www", virtualDirs := [], gAliasDoc := none,
    fopen := fun _ => some ⟨.regular, 10⟩, getInfo := fun _ => none,
    checkOtherHTTPHeaders := fun _ _ => HTTP_OK, postWrite := false }

/-- The request message parsed from a text that names no host. -/
def parsedRequest (text : List UInt8) : HttpMessage :=
  (parserAppend ⟨fun _ => none, fun _ _ => none, 0⟩ parserRequestInit text).2.msg

/-- The query stays in the file name, which is below the root as long as it does not climb. -/
theorem openedFiles_below_iff_plain :
    Below plainServer.gDocumentRootDir (bytes "/srv/www/a/b?x=1") :=
  (openedFiles_below_iff plainServer (parsedRequest (bytes "GET /a/c/../%62?x=1 HTTP/1.1\r\n\r\n"))
    (bytes "/srv/www/a/b?x=1") (by with_unfolding_all decide)).mpr (by with_unfolding_all decide)

/-- A `?` in the path keeps the `..` segments behind it in the file name. -/
theorem openedFiles_not_below :
    ¬∀ (res : Resolver) (server : WebServer) (text : List UInt8),
      (parserAppend res parserRequestInit text).1 = .success →
        ∀ name ∈ openedFiles server (parserAppend res parserRequestInit text).2.msg,
          Below server.gDocumentRootDir name := by
  intro claim
  have below := claim ⟨fun _ => none, fun _ _ => none, 0⟩ plainServer
    (bytes "GET /a?/../../b HTTP/1.1\r\n\r\n") (by with_unfolding_all decide) (bytes "/srv/www/a?/../../b")
    (by with_unfolding_all decide)
  have split : bytes "/srv/www/a?/../../b" =
      trimSlashes plainServer.gDocumentRootDir ++ bytes "/a?/../../b" := by decide
  rw [split, below_iff (Or.inr rfl)] at below
  exact below (by decide)

end Pupnp.Web
