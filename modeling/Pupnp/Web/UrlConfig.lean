import Pupnp.Gena.Subscribe
import Pupnp.Ixml.Parser
import Pupnp.Uri.Normal
import Pupnp.Uri.Tokens
import Pupnp.Web.AliasDocument
import Pupnp.Web.DocumentRoot

/-!
The description document of a device: the alias and the URL that `configure_urlbase` makes of its URLBase
and its name, and what the web server answers to a request for the path of that URL.
-/

namespace Pupnp.Web.UrlConfig
open Pupnp.CString Pupnp.Path Pupnp.Uri Pupnp.Http Pupnp.Web.AliasDocument
open Pupnp.Ixml (Node Tag Attr)
open Pupnp.Gena.Subscribe (InAddr Addr6Text)

def LINE_SIZE : Nat := 180

def UPNP_E_INVALID_DESC : Int := -107
def UPNP_E_INVALID_URL : Int := -108
def UPNP_E_URL_TOO_BIG : Int := -118

inductive ServerAddr where
  | inet (addr : InAddr) (port : UInt16)
  | inet6 (addr : Addr6Text) (port : UInt16)

def addrToString : ServerAddr → List UInt8
  | .inet addr port => addr.text ++ bytes ":" ++ decimalDigits port.toNat
  | .inet6 addr port => bytes "[" ++ addr.text ++ bytes "]:" ++ decimalDigits port.toNat

def calcAlias (alias_ rootPath : List UInt8) : List UInt8 :=
  let suffix := if rootPath.getLast? = some SLASH then [] else [SLASH]
  rootPath ++ suffix ++ (if alias_.head? = some SLASH then alias_.drop 1 else alias_)

def calcDescURL (ipPortStr alias_ : List UInt8) : Except Int (List UInt8) :=
  let url := bytes "http://" ++ ipPortStr ++ alias_
  if LINE_SIZE < url.length + 1 then .error UPNP_E_URL_TOO_BIG else .ok url

mutual

/-- The children of the first element of this name, as `ixmlDocument_getElementsByTagName` lists them. -/
def firstNamed (name : List UInt8) : Node → Option (List Node)
  | .element tag _ children => if tag.nodeName = name then some children else firstNamedIn name children
  | _ => none

def firstNamedIn (name : List UInt8) : List Node → Option (List Node)
  | [] => none
  | node :: nodes => (firstNamed name node).or (firstNamedIn name nodes)

end

/-- `ixmlNode_setNodeValue` on the first child; an element has no value. -/
def setFirstValue (value : List UInt8) : List Node → List Node
  | .text _ :: rest => .text value :: rest
  | .cdataSection _ :: rest => .cdataSection value :: rest
  | children => children

mutual

def setNamed (name value : List UInt8) : Node → Option Node
  | .element tag attrs children =>
      if tag.nodeName = name then some (.element tag attrs (setFirstValue value children))
      else (setNamedIn name value children).map (.element tag attrs)
  | _ => none

def setNamedIn (name value : List UInt8) : List Node → Option (List Node)
  | [] => none
  | node :: nodes =>
      ((setNamed name value node).map (· :: nodes)).or ((setNamedIn name value nodes).map (node :: ·))

end

def URL_BASE : List UInt8 := bytes "URLBase"

def urlBaseParts (ipStr : List UInt8) (domStr : List UInt8) (uri : UriType) : List UInt8 × List UInt8 :=
  let pathquery := uri.pathquery.read domStr
  let rootPath := if pathquery.head? = some SLASH then pathquery else SLASH :: pathquery
  let url := uri.scheme.read domStr ++ bytes "://" ++ ipStr ++ rootPath
  (if url.getLast? = some SLASH then url else url ++ [SLASH], rootPath)

/-- `config_description_doc`: the document with its URLBase, and the root path. A new element is put at
`addr`. -/
def configDescriptionDoc (res : Resolver) (addr : Nat) (doc : List Node) (ipStr : List UInt8) :
    Except Int (List Node × List UInt8) :=
  match firstNamedIn URL_BASE doc with
  | none =>
      match doc with
      | .element tag attrs children :: rest =>
          let url := bytes "http://" ++ ipStr ++ [SLASH]
          let urlBase : Node := .element ⟨addr, URL_BASE, none, []⟩ [] [.text url]
          .ok (.element tag attrs (children ++ [urlBase]) :: rest, [SLASH])
      | _ => .error UPNP_E_INVALID_DESC
  | some [] => .error UPNP_E_INVALID_DESC
  | some (.element _ _ _ :: _) => .error UPNP_E_INVALID_URL
  | some (.text value :: _) | some (.cdataSection value :: _) =>
      let domStr := cstr value
      match parseUri res domStr domStr.length with
      | none => .error UPNP_E_INVALID_URL
      | some uri =>
          if uri.type ≠ .absolute then .error UPNP_E_INVALID_URL
          else
            let (url, rootPath) := urlBaseParts ipStr domStr uri
            .ok ((setNamedIn URL_BASE url doc).getD doc, rootPath)

/-- `configure_urlbase`: the URL of the document and what `web_server_set_alias` is called with. -/
def configureUrlbase (res : Resolver) (addr : Nat) (ixmlPrintDocument : List Node → List UInt8) (doc : List Node)
    (serverAddr : ServerAddr) (alias_ : List UInt8) (lastModified : Int) : Except Int (List UInt8 × Settings) := do
  let ipaddrPort := addrToString serverAddr
  let (doc, rootPath) ← configDescriptionDoc res addr doc ipaddrPort
  let newAlias := calcAlias (cstr alias_) rootPath
  let docURL ← calcDescURL ipaddrPort newAlias
  return (docURL, ⟨newAlias, cstr (ixmlPrintDocument doc), lastModified⟩)

/-- The web server once `web_server_set_alias` is through. -/
def setAlias (server : WebServer) (settings : Settings) : WebServer :=
  { server with gAliasDoc := some ⟨slashed settings.aliasName, settings.aliasContent.length⟩ }

/-- The path and query of a URL with the scheme `http`: the URI characters behind the host. -/
def pathOf (url : List UInt8) : List UInt8 :=
  let behindHost := (url.drop 7).dropWhile (· ≠ SLASH)
  behindHost.take (parseUric behindHost behindHost.length)

/-- A GET for the path, as the parser of requests leaves it. -/
structure GetOf (res : Resolver) (path : List UInt8) (req : HttpMessage) : Prop where
  method : req.method = .get
  urlbuf : req.urlbuf = stripSlashes path
  uri : req.uri = parseUri res req.urlbuf req.urlbuf.length

/-- The web server answers with the alias document. -/
def Answered (answer : Answer) : Prop :=
  answer.code = HTTP_OK ∧ answer.source = some .xmlAlias ∧ answer.rtype = some .xmldoc

instance (answer : Answer) : Decidable (Answered answer) := inferInstanceAs (Decidable (_ ∧ _))

/-- A path that decoding and dot removal leave as it is, and that a request line brings through. -/
structure PlainPath (path : List UInt8) : Prop where
  /-- In particular no `%` and no `#`. -/
  chars : ∀ c ∈ path, (isUnreserved c || isReserved c) = true
  single : stripSlashes path = path
  dots : NoDotSegments (pathPart path)

/-! ### The request document -/

theorem takeZeros_dropWhile (s : List UInt8) (n : Nat) :
    (s ++ List.replicate n 0).dropWhile notEndPath = s.dropWhile notEndPath ++ List.replicate n 0 := by
  induction s with
  | nil => cases n <;> rfl
  | cons c rest ih =>
    rw [List.cons_append, List.dropWhile_cons, List.dropWhile_cons]
    split
    · exact ih
    · rfl

theorem decodedBuffer (path : List UInt8) : ∃ freed,
    (removeEscapedChars (path ++ [0]) path.length).1.take path.length =
      percentDecode path ++ List.replicate freed 0 ∧ (percentDecode path).length + freed = path.length := by
  obtain ⟨freed, decoded, size⟩ := removeEscapedChars_eq path
  refine ⟨freed, ?_, size⟩
  rw [decoded, ← size]
  simp [List.take_append]

theorem requestDocument_length (path : List UInt8) :
    (requestDocument path).length ≤ (percentDecode path).length := by
  obtain ⟨freed, buffer, size⟩ := decodedBuffer path
  obtain ⟨clean, removed, -, -⟩ := removeDots_split (removeEscapedChars (path ++ [0]) path.length).1 path.length
  have short : (removeDots (removeEscapedChars (path ++ [0]) path.length).1 path.length).length ≤
      (percentDecode path).length + freed := by
    have loop := removeDotsLoop_length ⟨[], percentDecode path ++ List.replicate freed 0⟩
    rw [removeDots, buffer, List.length_append]
    simpa using loop
  rw [buffer, takeZeros_dropWhile, ← List.append_assoc] at removed
  rw [removed, List.length_append, List.length_replicate] at short
  have text := (List.takeWhile_prefix (· ≠ 0) (l := clean ++ (percentDecode path).dropWhile notEndPath)).length_le
  rw [requestDocument, removed, cstr_zeros]
  unfold cstr
  omega

/-- Decoding and dot removal leave a path as it is just if it has neither escapes nor dot segments. -/
theorem requestDocument_eq_iff {path : List UInt8} (slash : path.head? = some SLASH) (noNul : (0 : UInt8) ∉ path) :
    requestDocument path = path ↔ (∀ i, isEscaped path i = false) ∧ NoDotSegments (pathPart path) := by
  obtain ⟨rest, shape⟩ : ∃ rest, path = SLASH :: rest := by
    cases path with
    | nil => cases slash
    | cons c rest => exact ⟨rest, by rw [Option.some.inj slash]⟩
  have stops : AtBoundary path := .inl (by rw [shape]; rfl)
  have undecoded (plain : ∀ i, isEscaped path i = false) : requestDocument path =
      cstr ((removeDotsLoop ⟨[], path⟩).out ++ (removeDotsLoop ⟨[], path⟩).rest) := by
    obtain ⟨freed, buffer, size⟩ := decodedBuffer path
    rw [percentDecode_plain plain] at buffer size
    obtain rfl : freed = 0 := by omega
    rw [List.replicate_zero, List.append_nil] at buffer
    rw [requestDocument, removeDots, buffer]
  constructor
  · intro same
    have plain := plain_of_percentDecode (same ▸ requestDocument_length path)
    refine ⟨plain, ?_⟩
    by_contra dots
    have shorter := removeDotsLoop_dots ⟨[], path⟩ stops dots
    have text := (List.takeWhile_prefix (· ≠ 0)
      (l := (removeDotsLoop ⟨[], path⟩).out ++ (removeDotsLoop ⟨[], path⟩).rest)).length_le
    have length := congrArg List.length ((undecoded plain).symm.trans same)
    unfold cstr at length
    rw [List.length_append] at text
    rw [List.length_nil] at shorter
    dsimp only at shorter
    omega
  · rintro ⟨plain, dots⟩
    rw [undecoded plain, removeDotsLoop_plain ⟨[], path⟩ stops dots]
    exact cstr_eq_self noNul

/-! ### URI characters -/

theorem uricEnd_all {s : List UInt8} (chars : ∀ c ∈ s, (isUnreserved c || isReserved c) = true) (i : Nat)
    (inside : i ≤ s.length) : uricEnd s s.length i = s.length := by
  induction i using uricEnd.induct s s.length with
  | case1 i below accepted ih =>
    rw [uricEnd, dif_pos below, if_pos accepted]
    exact ih below
  | case2 i below refused =>
    have here : charAt s i ∈ s := by
      rw [charAt, List.getD_eq_getElem?_getD, List.getElem?_eq_getElem below]
      exact List.getElem_mem below
    rw [chars _ here] at refused
    exact absurd rfl refused
  | case3 i outside =>
    rw [uricEnd, dif_neg outside]
    omega

/-- All of a text is taken as URI characters, without an escape, if it consists of them. -/
theorem parseUric_all_iff {s : List UInt8} (plain : ∀ i, isEscaped s i = false) :
    s.length ≤ parseUric s s.length ↔ ∀ c ∈ s, (isUnreserved c || isReserved c) = true := by
  constructor
  · intro all c member
    obtain ⟨j, inside, rfl⟩ := List.mem_iff_getElem.mp member
    have accepted := @uricEnd_accepts s s.length 0 j (Nat.zero_le j) (Nat.lt_of_lt_of_le inside all)
    rw [plain j, Bool.and_false, Bool.or_false, charAt, List.getD_eq_getElem?_getD, List.getElem?_eq_getElem inside] at accepted
    exact accepted
  · intro chars
    rw [parseUric, uricEnd_all chars 0 (Nat.zero_le _)]

theorem uric_noEscape {s : List UInt8} (chars : ∀ c ∈ s, (isUnreserved c || isReserved c) = true) (i : Nat) :
    isEscaped s i = false := by
  have percent : charAt s i ≠ 37 := by
    intro same
    by_cases inside : i < s.length
    · rw [charAt, List.getD_eq_getElem?_getD, List.getElem?_eq_getElem inside] at same
      have member := chars _ (List.getElem_mem inside)
      rw [show s[i] = 37 from same] at member
      exact absurd member (by decide)
    · rw [charAt, List.getD_eq_getElem?_getD, List.getElem?_eq_none (by omega)] at same
      exact absurd same (by decide)
  simp [isEscaped, percent]

theorem stripSlashes_length (s : List UInt8) : (stripSlashes s).length ≤ s.length := by
  induction s using stripSlashes.induct with
  | case1 a b rest slashes ih =>
    rw [stripSlashes, if_pos slashes]
    exact Nat.le_succ_of_le ih
  | case2 a b rest other => rw [stripSlashes, if_neg other]
  | case3 s short =>
    rw [stripSlashes]
    exact short

theorem stripSlashes_eq {s : List UInt8} (whole : s.length ≤ (stripSlashes s).length) : stripSlashes s = s := by
  match s with
  | [] => rfl
  | [c] => rfl
  | a :: b :: rest =>
    rw [stripSlashes] at whole ⊢
    split
    next slashes =>
      have shorter := stripSlashes_length (b :: rest)
      rw [if_pos slashes, List.length_cons] at whole
      omega
    next => rfl

theorem parseUri_path (res : Resolver) {path : List UInt8} (slash : path.head? = some SLASH)
    (single : stripSlashes path = path) (short : path.length < 2 ^ 64) :
    ∃ uri, parseUri res path path.length = some uri ∧ uri.pathquery = ⟨some 0, parseUric path path.length⟩ := by
  have first : charAt path 0 = SLASH := by
    cases path with
    | nil => cases slash
    | cons c rest => exact Option.some.inj slash
  have noScheme : parseScheme path path.length = 0 := by
    have letter : isAlpha SLASH = false := by decide
    simp [parseScheme, first, letter]
  have second : charAt path 1 ≠ SLASH := by
    intro same
    match path with
    | [] => cases slash
    | [c] => cases (show (0 : UInt8) = SLASH from same)
    | c :: d :: rest =>
      obtain rfl : c = SLASH := first
      obtain rfl : d = SLASH := same
      rw [stripSlashes, if_pos (by decide)] at single
      have shorter := stripSlashes_length (SLASH :: rest)
      rw [single, List.length_cons, List.length_cons] at shorter
      omega
  have noAuthority : (decide (0 + 1 < path.length) && decide (charAt path 0 = 47) && decide (charAt path (0 + 1) = 47)) =
      false := by
    have : charAt path (0 + 1) ≠ 47 := second
    simp [this]
  have whole : subSize path.length 0 = path.length := by
    unfold subSize
    omega
  unfold parseUri
  simp only [noScheme, if_true, noAuthority, Bool.false_eq_true, if_false]
  refine ⟨_, rfl, ?_⟩
  simp [whole]

/-! ### The alias -/

theorem addrToString_noSlash (serverAddr : ServerAddr) : SLASH ∉ addrToString serverAddr := by
  have digits (n : Nat) : (47 : UInt8) ∉ decimalDigits n := fun member =>
    absurd (decimalDigits_isDigit n 47 member) (by decide)
  cases serverAddr with
  | inet addr port => simp [addrToString, InAddr.text, digits, SLASH, bytes]
  | inet6 addr port =>
    have own : (47 : UInt8) ∉ addr.text := fun member => absurd (addr.chars 47 member) (by decide)
    simp [addrToString, digits, own, SLASH, bytes]

theorem read_noNul {s : List UInt8} (noNul : (0 : UInt8) ∉ s) (token : UriToken) : (0 : UInt8) ∉ token.read s :=
  fun member => noNul (List.mem_of_mem_drop (List.mem_of_mem_take member))

theorem configDescriptionDoc_root {res : Resolver} {addr : Nat} {doc doc' : List Node} {ipStr rootPath : List UInt8}
    (configured : configDescriptionDoc res addr doc ipStr = .ok (doc', rootPath)) :
    rootPath.head? = some SLASH ∧ (0 : UInt8) ∉ rootPath := by
  have rooted (value : List UInt8) (uri : UriType) :
      (urlBaseParts ipStr (cstr value) uri).2.head? = some SLASH ∧
        (0 : UInt8) ∉ (urlBaseParts ipStr (cstr value) uri).2 := by
    have noNul := read_noNul (s := cstr value) (cstr_noNul value) uri.pathquery
    unfold urlBaseParts
    dsimp only
    split
    next slash => exact ⟨slash, noNul⟩
    next =>
      refine ⟨rfl, ?_⟩
      rw [List.mem_cons]
      exact not_or.mpr ⟨by decide, noNul⟩
  have based (value : List UInt8) (configured : (match parseUri res (cstr value) (cstr value).length with
      | none => .error UPNP_E_INVALID_URL
      | some uri =>
        if uri.type ≠ .absolute then .error UPNP_E_INVALID_URL
        else .ok ((setNamedIn URL_BASE (urlBaseParts ipStr (cstr value) uri).1 doc).getD doc,
          (urlBaseParts ipStr (cstr value) uri).2) : Except Int (List Node × List UInt8)) = .ok (doc', rootPath)) :
      rootPath.head? = some SLASH ∧ (0 : UInt8) ∉ rootPath := by
    split at configured
    next => cases configured
    next uri parsed =>
      split at configured
      next => cases configured
      next =>
        obtain ⟨-, rfl⟩ := Prod.mk.inj (Except.ok.inj configured)
        exact rooted value uri
  unfold configDescriptionDoc at configured
  split at configured
  next =>
    split at configured
    next =>
      obtain ⟨-, rfl⟩ := Prod.mk.inj (Except.ok.inj configured)
      exact ⟨rfl, by decide⟩
    next => cases configured
  next => cases configured
  next => cases configured
  next value _ _ => exact based value configured
  next value _ _ => exact based value configured

theorem calcAlias_path {rootPath : List UInt8} (rooted : rootPath.head? = some SLASH) (noNul : (0 : UInt8) ∉ rootPath)
    (alias_ : List UInt8) :
    (calcAlias (cstr alias_) rootPath).head? = some SLASH ∧ (0 : UInt8) ∉ calcAlias (cstr alias_) rootPath := by
  have own : (0 : UInt8) ∉ cstr alias_ := cstr_noNul alias_
  constructor
  · rw [calcAlias, List.append_assoc, List.head?_append, rooted]
    rfl
  · unfold calcAlias
    dsimp only
    simp only [List.mem_append, not_or]
    refine ⟨⟨noNul, ?_⟩, ?_⟩
    · split <;> decide
    · split
      · exact fun member => own (List.mem_of_mem_drop member)
      · exact own

/-- What `configure_urlbase` gives: an absolute path that the URL ends with. -/
structure Configured (serverAddr : ServerAddr) (docURL name : List UInt8) : Prop where
  slash : name.head? = some SLASH
  noNul : (0 : UInt8) ∉ name
  url : docURL = bytes "http://" ++ addrToString serverAddr ++ name
  short : docURL.length < LINE_SIZE

theorem configureUrlbase_configured {res : Resolver} {addr : Nat} {print : List Node → List UInt8} {doc : List Node}
    {serverAddr : ServerAddr} {alias_ : List UInt8} {lastModified : Int} {docURL : List UInt8} {settings : Settings}
    (configured : configureUrlbase res addr print doc serverAddr alias_ lastModified = .ok (docURL, settings)) :
    Configured serverAddr docURL settings.aliasName := by
  unfold configureUrlbase at configured
  dsimp only at configured
  cases described : configDescriptionDoc res addr doc (addrToString serverAddr) with
  | error code =>
    rw [described] at configured
    cases configured
  | ok made =>
    obtain ⟨doc', rootPath⟩ := made
    rw [described] at configured
    obtain ⟨rooted, noNul⟩ := configDescriptionDoc_root described
    obtain ⟨slash, noNul⟩ := calcAlias_path rooted noNul alias_
    cases url : calcDescURL (addrToString serverAddr) (calcAlias (cstr alias_) rootPath) with
    | error code =>
      simp only [bind, Except.bind, url] at configured
      cases configured
    | ok made =>
      simp only [bind, Except.bind, url] at configured
      obtain ⟨rfl, rfl⟩ := Prod.mk.inj (Except.ok.inj configured)
      unfold calcDescURL at url
      dsimp only at url
      split at url
      next => cases url
      next short =>
        obtain rfl := Except.ok.inj url
        exact ⟨slash, noNul, rfl, by omega⟩

theorem Configured.path {serverAddr : ServerAddr} {docURL name : List UInt8} (made : Configured serverAddr docURL name) :
    pathOf docURL = name.take (parseUric name name.length) := by
  have host : ∀ c ∈ addrToString serverAddr, decide (c ≠ SLASH) = true := by
    intro c member
    exact decide_eq_true fun same => addrToString_noSlash serverAddr (same ▸ member)
  have rest : (docURL.drop 7).dropWhile (· ≠ SLASH) = name := by
    have behind : docURL.drop 7 = addrToString serverAddr ++ name := by
      rw [made.url, List.append_assoc]
      rfl
    rw [behind, List.dropWhile_append_of_pos host]
    cases shape : name with
    | nil => rfl
    | cons c others =>
      have slash := made.slash
      rw [shape] at slash
      rw [Option.some.inj slash]
      rfl
  rw [pathOf, rest]

/-! ### Requests -/

theorem pathquery_sublist (req : HttpMessage) : (pathquery req).Sublist req.urlbuf := by
  unfold pathquery
  cases req.uri with
  | none => exact List.nil_sublist _
  | some uri => exact (List.take_sublist _ _).trans (List.drop_sublist _ _)

/-- A GET is answered with the alias document if its request document is the alias, which is not in a virtual
directory, and its other headers are accepted. -/
theorem answered_iff {server : WebServer} {req : HttpMessage} (get : req.method = .get) {document : Web.XmlAlias}
    (stored : server.gAliasDoc = some document) (slash : document.name.head? = some SLASH) :
    Answered (processRequest server req) ↔
      requestDocument (pathquery req) = document.name ∧ isFileInVirtualDir server document.name = false ∧
        server.checkOtherHTTPHeaders req document.docLength = HTTP_OK := by
  have responds (finfo : FileInfo) (length : finfo.fileLength = document.docLength) :
      Answered (respond server req .xmlAlias none finfo []) ↔
        server.checkOtherHTTPHeaders req document.docLength = HTTP_OK := by
    unfold respond Answered
    rw [length]
    by_cases accepted : server.checkOtherHTTPHeaders req document.docLength = HTTP_OK
    · simp [accepted, get]
    · simp [accepted]
  have elsewhere (source : Source) (filename : Option (List UInt8)) (finfo : FileInfo) (asked : List (List UInt8))
      (other : source ≠ .xmlAlias) : ¬ Answered (respond server req source filename finfo asked) := by
    rintro ⟨-, from_, -⟩
    unfold respond at from_
    dsimp only at from_
    split_ifs at from_ <;> exact other (Option.some.inj from_)
  have head : charAt document.name 0 = SLASH := by
    cases shape : document.name with
    | nil => rw [shape] at slash; cases slash
    | cons c rest => rw [shape] at slash; exact Option.some.inj slash
  unfold processRequest
  generalize requestDocument (pathquery req) = requestDoc
  dsimp only
  split
  next noSlash =>
    refine iff_of_false (fun answered => ?_) fun right => noSlash (right.1 ▸ head)
    cases answered.2.1
  next =>
    split
    next virtual =>
      refine iff_of_false (fun answered => ?_) fun right => ?_
      · split at answered
        · cases answered.2.1
        · exact elsewhere _ _ _ _ (by decide) answered
      · rw [right.1, right.2.1] at virtual
        cases virtual
    next real =>
      have unlisted := Bool.eq_false_iff.mpr real
      by_cases same : document.name = requestDoc
      · subst same
        have found : getAlias server document.name = some ⟨document.docLength, false, true⟩ := by
          simp [getAlias, stored]
        rw [found]
        dsimp only
        rw [responds _ rfl, and_iff_right rfl, and_iff_right unlisted]
      · have missing : getAlias server requestDoc = none := by
          simp [getAlias, stored, same]
        rw [missing]
        refine iff_of_false (fun answered => ?_) fun right => same right.1.symm
        dsimp only at answered
        split at answered
        · cases answered.2.1
        · split at answered
          · cases answered.2.1
          · exact elsewhere _ _ _ _ (by decide) answered

/-- A GET for the path of the URL that `configure_urlbase` gives is answered with the alias document just if
the alias is a plain path outside the virtual directories, and the other headers are accepted. -/
theorem docURL_answered_iff (res : Resolver) (addr : Nat) (ixmlPrintDocument : List Node → List UInt8) (doc : List Node)
    (serverAddr : ServerAddr) (alias_ : List UInt8) (lastModified : Int) (docURL : List UInt8) (settings : Settings)
    (configured : configureUrlbase res addr ixmlPrintDocument doc serverAddr alias_ lastModified = .ok (docURL, settings))
    (server : WebServer) (req : HttpMessage) (get : GetOf res (pathOf docURL) req) :
    Answered (processRequest (setAlias server settings) req) ↔
      PlainPath settings.aliasName ∧ isFileInVirtualDir server settings.aliasName = false ∧
        server.checkOtherHTTPHeaders req settings.aliasContent.length = HTTP_OK := by
  have made := configureUrlbase_configured configured
  have stored : (setAlias server settings).gAliasDoc = some ⟨settings.aliasName, settings.aliasContent.length⟩ := by
    have leading : slashed settings.aliasName = settings.aliasName := if_pos made.slash
    rw [setAlias, leading]
  rw [answered_iff get.method stored made.slash]
  dsimp only
  refine and_congr ?_ Iff.rfl
  have path := made.path
  have urlbuf := get.urlbuf
  generalize settings.aliasName = name at made path ⊢
  rw [path] at urlbuf
  constructor
  · intro same
    -- each stage of the request can only shorten the path, so none of them does
    have document := requestDocument_length (pathquery req)
    have decoded := percentDecode_length (pathquery req)
    have queried := (pathquery_sublist req).length_le
    have stripped := stripSlashes_length (name.take (parseUric name name.length))
    have taken : (name.take (parseUric name name.length)).length ≤ name.length := List.length_take_le' _ _
    rw [same] at document
    rw [urlbuf] at queried
    have all : name.take (parseUric name name.length) = name :=
      (List.take_sublist _ _).eq_of_length_le (by omega)
    rw [all] at urlbuf stripped queried
    have single := stripSlashes_eq (s := name) (by omega)
    have query : pathquery req = name := by
      have sublist := pathquery_sublist req
      rw [urlbuf, single] at sublist
      exact sublist.eq_of_length_le (by omega)
    rw [query] at same
    obtain ⟨plain, dots⟩ := (requestDocument_eq_iff made.slash made.noNul).mp same
    refine ⟨(parseUric_all_iff plain).mp ?_, single, dots⟩
    exact List.take_eq_self_iff _ |>.mp all
  · intro plain
    have noEscape := uric_noEscape plain.chars
    have all := (parseUric_all_iff noEscape).mpr plain.chars
    rw [List.take_of_length_le all, plain.single] at urlbuf
    have short : name.length < 2 ^ 64 := by
      have length := congrArg List.length made.url
      have bound := made.short
      unfold LINE_SIZE at bound
      simp only [List.length_append] at length
      omega
    obtain ⟨uri, parsed, whole⟩ := parseUri_path res made.slash plain.single short
    have query : pathquery req = name := by
      have own := get.uri
      rw [urlbuf, parsed] at own
      rw [pathquery, own, urlbuf, Option.map_some, Option.getD_some, whole]
      exact List.take_of_length_le all
    rw [query]
    exact (requestDocument_eq_iff made.slash made.noNul).mpr ⟨noEscape, plain.dots⟩

def hostResolver : Resolver where
  getaddrinfo _ := none
  inetPton family text := if family = .inet && text = bytes "10.0.0.1" then some [10, 0, 0, 1] else none
  gIfIndex := 2

def rootDocument (urlBase : String) : List Node :=
  [.element ⟨1, bytes "root", none, bytes "root"⟩ []
    [.element ⟨2, bytes "URLBase", none, bytes "URLBase"⟩ [] [.text (bytes urlBase)]]]

/-- A web server without virtual directories, whose document root has no files. -/
def emptyServer : WebServer where
  gDocumentRootDir := bytes "/var/www"
  virtualDirs := []
  gAliasDoc := none
  fopen _ := none
  getInfo _ := none
  checkOtherHTTPHeaders _ _ := HTTP_OK
  postWrite := false

def getMessage (path : List UInt8) : HttpMessage :=
  { parserRequestInit.msg with
    method := .get
    urlbuf := stripSlashes path
    uri := parseUri hostResolver (stripSlashes path) (stripSlashes path).length
    majorVersion := 1
    minorVersion := 1 }

/-- What `configure_urlbase` makes of a URLBase and an alias. -/
def configuredAt (urlBase alias_ : String) : Except Int (List UInt8 × Settings) :=
  configureUrlbase hostResolver 3 (fun _ => bytes "<root/>") (rootDocument urlBase)
    (.inet ⟨10, 0, 0, 1⟩ 49152) (bytes alias_) 7

theorem toOption_ok {α : Type} {made : Except Int α} {a : α} (same : made.toOption = some a) : made = .ok a := by
  cases made with
  | error code => cases same
  | ok b => rw [Option.some.inj same]

theorem docURL_answered_description : ∃ docURL settings, configuredAt "http://10.0.0.1/dev" "description.xml" = .ok (docURL, settings) ∧
    docURL = bytes "http://10.0.0.1:49152/dev/description.xml" ∧
    Answered (processRequest (setAlias emptyServer settings) (getMessage (pathOf docURL))) := by
  have configured : configuredAt "http://10.0.0.1/dev" "description.xml" = .ok
      (bytes "http://10.0.0.1:49152/dev/description.xml", ⟨bytes "/dev/description.xml", bytes "<root/>", 7⟩) :=
    toOption_ok (by with_unfolding_all decide)
  refine ⟨_, _, configured, rfl, ?_⟩
  have plain : PlainPath (bytes "/dev/description.xml") := ⟨by decide, by decide, by decide⟩
  exact (docURL_answered_iff hostResolver 3 (fun _ => bytes "<root/>") (rootDocument "http://10.0.0.1/dev")
    (.inet ⟨10, 0, 0, 1⟩ 49152) (bytes "description.xml") 7 _ _ configured emptyServer (getMessage _)
    ⟨rfl, rfl, rfl⟩).mpr ⟨plain, rfl, rfl⟩

/-- The documents `a%20b.xml` and, with a URLBase of `/x/../`, `description.xml` are not found under
their URLs. -/
theorem docURL_not_answered :
    (∃ docURL settings, configuredAt "http://10.0.0.1/dev" "a%20b.xml" = .ok (docURL, settings) ∧
      GetOf hostResolver (pathOf docURL) (getMessage (pathOf docURL)) ∧
      ¬ Answered (processRequest (setAlias emptyServer settings) (getMessage (pathOf docURL)))) ∧
    (∃ docURL settings, configuredAt "http://10.0.0.1/x/../" "description.xml" = .ok (docURL, settings) ∧
      GetOf hostResolver (pathOf docURL) (getMessage (pathOf docURL)) ∧
      ¬ Answered (processRequest (setAlias emptyServer settings) (getMessage (pathOf docURL)))) := by
  have escape : configuredAt "http://10.0.0.1/dev" "a%20b.xml" = .ok
      (bytes "http://10.0.0.1:49152/dev/a%20b.xml", ⟨bytes "/dev/a%20b.xml", bytes "<root/>", 7⟩) :=
    toOption_ok (by with_unfolding_all decide)
  have dots : configuredAt "http://10.0.0.1/x/../" "description.xml" = .ok
      (bytes "http://10.0.0.1:49152/x/../description.xml", ⟨bytes "/x/../description.xml", bytes "<root/>", 7⟩) :=
    toOption_ok (by with_unfolding_all decide)
  exact ⟨⟨_, _, escape, ⟨rfl, rfl, rfl⟩, by with_unfolding_all decide⟩, ⟨_, _, dots, ⟨rfl, rfl, rfl⟩, by with_unfolding_all decide⟩⟩

end Pupnp.Web.UrlConfig
