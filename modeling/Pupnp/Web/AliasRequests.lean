import Pupnp.Web.AliasDocument
import Pupnp.Web.DocumentRoot

/-!
The references of requests to the alias document. `process_request` grabs the document for every request that could be
for it; where the request succeeds, `web_server_callback` gives it back only if the document is the answer.
-/

namespace Pupnp.Web.AliasDocument.Requests
open Pupnp.CString Pupnp.Http Pupnp.Path Pupnp.RefCount Pupnp.Run Pupnp.Uri

/-- A request that `process_request` has decided on, with the copy that it has not released. -/
structure Request where
  answer : Answer
  copy : Option XmlAlias

/-- The requests that have found the alias valid, those with an answer to come, and those that are answered. -/
structure State where
  web : AliasDocument.State
  checked : List (WebServer × HttpMessage)
  pending : List Request
  answered : List Request

def State.initial : State := ⟨.initial, [], [], []⟩

def visible (web : AliasDocument.State) : Option Web.XmlAlias :=
  web.gAliasDoc.buf.bind fun d => web.documents[d]?.map fun block => ⟨block.payload.name, block.payload.doc.length⟩

def asksAlias (server : WebServer) (req : HttpMessage) : Bool :=
  charAt (requestDocument (pathquery req)) 0 = SLASH && !isFileInVirtualDir server (requestDocument (pathquery req))

/-- `process_request` up to the grab, or to its end where there is none. -/
def checkAlias (server : WebServer) (req : HttpMessage) (s : State) : State :=
  if asksAlias server req && isValidAlias s.web.gAliasDoc then { s with checked := (server, req) :: s.checked }
  else { s with pending := ⟨processRequest { server with gAliasDoc := none } req, none⟩ :: s.pending }

def grabAlias (server : WebServer) (req : HttpMessage) (s : State) : State :=
  let (copy, web) := aliasGrab s.web
  { s with
    web := { web with checked := web.checked - 1, grabbed := copy :: web.grabbed }
    pending := ⟨processRequest { server with gAliasDoc := visible s.web } req, some copy⟩ :: s.pending }

def releaseCopy (copy : XmlAlias) (web : AliasDocument.State) : AliasDocument.State :=
  { (aliasRelease copy web).2 with grabbed := web.grabbed.erase copy }

def sendDocument (copy : Option XmlAlias) (web : AliasDocument.State) : AliasDocument.State :=
  match copy with
  | none => web.check false .null
  | some copy =>
      releaseCopy copy (match copy.buf with
        | none => web.check false .null
        | some d => web.use d)

/-- The end of `process_request`, which releases the copy where it fails, and the rest of `web_server_callback`. -/
def answerRequest (request : Request) (s : State) : State :=
  if request.answer.code ≠ HTTP_OK then
    let web := match request.copy with
      | none => s.web
      | some copy => releaseCopy copy s.web
    { s with web := web, answered := ⟨request.answer, none⟩ :: s.answered }
  else if request.answer.rtype = some .xmldoc then
    { s with web := sendDocument request.copy s.web, answered := ⟨request.answer, none⟩ :: s.answered }
  else { s with answered := request :: s.answered }

def setsAlias : AliasDocument.Step → Bool
  | .check | .grab | .read _ | .release _ => false
  | _ => true

inductive Step where
  | set (part : AliasDocument.Step)
  | check (server : WebServer) (req : HttpMessage)
  | grab (i : Nat)
  | answer (i : Nat)

def step : Step → State → Option State
  | .set part, s => if setsAlias part then (AliasDocument.step part s.web).map ({ s with web := · }) else none
  | .check server req, s => some (checkAlias server req s)
  | .grab i, s => s.checked[i]?.map fun (server, req) => grabAlias server req { s with checked := s.checked.eraseIdx i }
  | .answer i, s => s.pending[i]?.map fun request => answerRequest request { s with pending := s.pending.eraseIdx i }

/-- A request still finds a document that has a reference, and the calls that set one keep to their order. -/
def Orderly : Step → State → Prop
  | .set part, s => AliasDocument.Orderly part s.web
  | .grab _, s => AliasDocument.Orderly .grab s.web
  | _, _ => True

instance decidableOrderly : ∀ label s, Decidable (Orderly label s)
  | .set part, s => AliasDocument.decidableOrderly part s.web
  | .grab _, s => AliasDocument.decidableOrderly .grab s.web
  | .check _ _, _ => isTrue trivial
  | .answer _, _ => isTrue trivial

/-! ### What an answer is for -/

theorem respond_xmldoc {server : WebServer} {req : HttpMessage} {source : Source} {filename : Option (List UInt8)}
    {finfo : FileInfo} {asked : List (List UInt8)}
    (document : (respond server req source filename finfo asked).rtype = some .xmldoc) : source = .xmlAlias := by
  cases source with
  | xmlAlias => rfl
  | virtualDir | documentRoot =>
    unfold respond at document
    dsimp only at document
    split_ifs at document
    all_goals cases document

theorem processRequest_xmldoc {server : WebServer} {req : HttpMessage}
    (document : (processRequest server req).rtype = some .xmldoc) : server.gAliasDoc ≠ none := by
  intro none_
  have noAlias : getAlias server (requestDocument (pathquery req)) = none := by
    rw [getAlias, none_]
    rfl
  unfold processRequest at document
  dsimp only at document
  rw [noAlias] at document
  split_ifs at document
  · cases found : (locate req server.getInfo (requestDocument (pathquery req))).found with
    | error code =>
      rw [found] at document
      cases document
    | ok file =>
      rw [found] at document
      exact absurd (respond_xmldoc document) (by decide)
  · dsimp only at document
    split at document
    next => cases document
    next => exact absurd (respond_xmldoc document) (by decide)

/-! ### The copies -/

def State.copies (s : State) : List XmlAlias := (s.pending ++ s.answered).filterMap Request.copy

/-- Answered with success and with something other than the document. -/
def Request.Other (request : Request) : Prop :=
  request.answer.code = HTTP_OK ∧ request.answer.rtype ≠ some .xmldoc

structure Balanced (s : State) : Prop where
  inv : Inv s.web
  grabbed : s.web.grabbed.Perm s.copies
  fine : ∀ request ∈ s.pending, request.copy = none → request.answer.rtype ≠ some .xmldoc
  left : ∀ request ∈ s.answered, request.copy ≠ none → request.Other

theorem setsAlias_grabbed {part : AliasDocument.Step} (sets : setsAlias part = true) {web web' : AliasDocument.State}
    (taken : AliasDocument.step part web = some web') : web'.grabbed = web.grabbed := by
  have check (good : Bool) (fault : Fault) (web : AliasDocument.State) : (web.check good fault).grabbed = web.grabbed := by
    unfold AliasDocument.State.check
    split <;> rfl
  have released : web.releaseAlias.grabbed = web.grabbed := by
    unfold AliasDocument.State.releaseAlias aliasRelease AliasDocument.State.use
    dsimp only
    split
    next => rfl
    next => split <;> simp only [check]
  cases part with
  | setRelease settings =>
    obtain rfl := Option.some.inj taken
    exact released
  | setPublish i | setFail i =>
    obtain ⟨settings, -, rfl⟩ := Option.map_eq_some_iff.mp taken
    rfl
  | destroyRelease =>
    obtain rfl := Option.some.inj taken
    exact released
  | destroyClear =>
    rw [AliasDocument.step] at taken
    split at taken
    · cases taken
    · obtain rfl := Option.some.inj taken
      rfl
  | check | grab | read i | release i => cases sets

theorem releaseCopy_keeps {web : AliasDocument.State} (inv : Inv web) {copy : XmlAlias} {others : List XmlAlias}
    (copies : web.grabbed.Perm (copy :: others)) :
    Inv (releaseCopy copy web) ∧ (releaseCopy copy web).grabbed.Perm others := by
  have member : copy ∈ web.grabbed := copies.mem_iff.mpr List.mem_cons_self
  have found : web.grabbed[web.grabbed.idxOf copy]? = some copy := by
    rw [List.getElem?_eq_getElem (List.idxOf_lt_length_of_mem member), List.getElem_idxOf]
  have released := release_inv inv found
  rw [← List.erase_eq_eraseIdx_of_idxOf rfl] at released
  refine ⟨released, ?_⟩
  have fewer := copies.erase copy
  rwa [List.erase_cons_head] at fewer

/-! ### Runs -/

theorem check_balanced {s : State} (balanced : Balanced s) (server : WebServer) (req : HttpMessage) :
    Balanced (checkAlias server req s) := by
  unfold checkAlias
  split
  next => exact ⟨balanced.inv, balanced.grabbed, balanced.fine, balanced.left⟩
  next =>
    exact ⟨balanced.inv, balanced.grabbed,
      List.forall_mem_cons.mpr ⟨fun _ document => processRequest_xmldoc document rfl, balanced.fine⟩, balanced.left⟩

theorem grab_balanced {s : State} (balanced : Balanced s) (server : WebServer) (req : HttpMessage)
    (orderly : AliasDocument.Orderly .grab s.web) : Balanced (grabAlias server req s) := by
  obtain ⟨d, valid, held⟩ := orderly
  have inv := grab_inv balanced.inv valid held
  have same : (aliasGrab s.web).2.grabbed = s.web.grabbed := by
    have names := balanced.inv.named d valid
    have unused : freed d s.web.documents = false := balanced.inv.counted.not_freed (mem_references.mpr held)
    simp [aliasGrab, AliasDocument.State.use, AliasDocument.State.check, isValidAlias, names.1, names.2, unused]
  refine ⟨inv, ?_, List.forall_mem_cons.mpr ⟨fun absent => absurd absent (Option.some_ne_none _), balanced.fine⟩,
    balanced.left⟩
  change ((aliasGrab s.web).1 :: (aliasGrab s.web).2.grabbed).Perm ((aliasGrab s.web).1 :: s.copies)
  rw [same]
  exact balanced.grabbed.cons _

theorem answer_balanced {s : State} (balanced : Balanced s) {i : Nat} {request : Request}
    (found : s.pending[i]? = some request) :
    Balanced (answerRequest request { s with pending := s.pending.eraseIdx i }) := by
  have fine := balanced.fine request (List.mem_of_getElem? found)
  have others : ∀ other ∈ s.pending.eraseIdx i, other.copy = none → other.answer.rtype ≠ some .xmldoc :=
    fun other inside => balanced.fine other (List.mem_of_mem_eraseIdx inside)
  have given (answer : Answer) : ∀ other ∈ Request.mk answer none :: s.answered, other.copy ≠ none → other.Other :=
    List.forall_mem_cons.mpr ⟨fun some_ => absurd rfl some_, balanced.left⟩
  have copies : s.web.grabbed.Perm (request.copy.toList ++ (s.pending.eraseIdx i ++ s.answered).filterMap Request.copy) := by
    obtain ⟨below, here⟩ := List.getElem?_eq_some_iff.mp found
    have moved := (List.getElem_cons_eraseIdx_perm below).symm.filterMap Request.copy
    rw [here] at moved
    refine balanced.grabbed.trans ?_
    rw [State.copies, List.filterMap_append, List.filterMap_append, ← List.append_assoc]
    refine (moved.trans (.of_eq ?_)).append_right _
    cases copy : request.copy <;> simp [copy]
  have without (answer : Answer) :
      (s.pending.eraseIdx i ++ s.answered).filterMap Request.copy =
        (s.pending.eraseIdx i ++ Request.mk answer none :: s.answered).filterMap Request.copy := by
    simp
  obtain ⟨answer, copy⟩ := request
  unfold answerRequest
  split
  next failed =>
    cases copy with
    | none => exact ⟨balanced.inv, copies.trans (.of_eq (without answer)), others, given answer⟩
    | some copy =>
      obtain ⟨inv, grabbed⟩ := releaseCopy_keeps balanced.inv copies
      exact ⟨inv, grabbed.trans (.of_eq (without answer)), others, given answer⟩
  next ok =>
    split
    next document =>
      cases copy with
      | none => exact absurd document (fine rfl)
      | some copy =>
        have here : copy ∈ s.web.grabbed := copies.mem_iff.mpr List.mem_cons_self
        obtain ⟨d, names⟩ := balanced.inv.copies copy here
        obtain ⟨inv, grabbed⟩ := releaseCopy_keeps balanced.inv copies
        dsimp only [sendDocument]
        rw [names.1]
        dsimp only
        rw [read_inv balanced.inv here names]
        exact ⟨inv, grabbed.trans (.of_eq (without answer)), others, given answer⟩
    next other =>
      refine ⟨balanced.inv, copies.trans ?_, others,
        List.forall_mem_cons.mpr ⟨fun _ => ⟨not_not.mp ok, other⟩, balanced.left⟩⟩
      rw [State.copies, List.filterMap_append, List.filterMap_append]
      cases copy with
      | none => exact .of_eq rfl
      | some copy =>
        exact (@List.perm_middle _ copy ((s.pending.eraseIdx i).filterMap Request.copy) _).symm

theorem step_balanced (label : Step) (s t : State) (orderly : Orderly label s) (taken : step label s = some t)
    (balanced : Balanced s) : Balanced t := by
  cases label with
  | set part =>
    rw [step] at taken
    split at taken
    next sets =>
      obtain ⟨web, moved, rfl⟩ := Option.map_eq_some_iff.mp taken
      have inv := step_inv part s.web web orderly moved balanced.inv
      have grabbed : web.grabbed.Perm s.copies := setsAlias_grabbed sets moved ▸ balanced.grabbed
      exact ⟨inv, grabbed, balanced.fine, balanced.left⟩
    next => cases taken
  | check server req =>
    obtain rfl := Option.some.inj taken
    exact check_balanced balanced server req
  | grab i =>
    obtain ⟨⟨server, req⟩, -, rfl⟩ := Option.map_eq_some_iff.mp taken
    have before : Balanced { s with checked := s.checked.eraseIdx i } :=
      ⟨balanced.inv, balanced.grabbed, balanced.fine, balanced.left⟩
    exact grab_balanced before server req orderly
  | answer i =>
    obtain ⟨request, found, rfl⟩ := Option.map_eq_some_iff.mp taken
    exact answer_balanced balanced found

/-- The requests that have a copy of a document. -/
def copiesOf (d : Nat) (requests : List Request) : Nat :=
  ((requests.filterMap Request.copy).filterMap XmlAlias.ct).count d

/-- In every orderly run of requests and of calls that set the alias, the counter of a document is the number of its
references: the one it is set with, one for each request that is to be answered, and one for each that was answered with
success and with something other than the document. Those last never give it back. -/
theorem runs_references (labels : List Step) (s : State) (ran : run step labels .initial = some s)
    (orderly : Along step Orderly labels .initial) :
    s.web.faults = [] ∧ (∀ request ∈ s.answered, request.copy ≠ none → request.Other) ∧
      ∀ d block, s.web.documents[d]? = some block →
        block.ct = (((if s.web.installed = true ∧ s.web.gAliasDoc.ct = some d then 1 else 0) +
          copiesOf d s.pending + copiesOf d s.answered : Nat) : Int) ∧
        block.frees = if block.ct = 0 then 1 else 0 := by
  have start : Balanced .initial := ⟨.initial, .of_eq rfl, nofun, nofun⟩
  have balanced := run_keeps step_balanced start orderly ran
  refine ⟨balanced.inv.faultless, balanced.left, fun d block found => ?_⟩
  obtain ⟨count, frees⟩ := balanced.inv.counted d block found
  have copies : (s.web.grabbed.filterMap (·.ct)).count d = copiesOf d s.pending + copiesOf d s.answered := by
    rw [(balanced.grabbed.filterMap _).count_eq, State.copies, List.filterMap_append, List.filterMap_append,
      List.count_append]
    rfl
  have installed : (if s.web.installed = true then s.web.gAliasDoc.ct.toList else []).count d =
      if s.web.installed = true ∧ s.web.gAliasDoc.ct = some d then 1 else 0 := by
    cases s.web.installed <;> cases s.web.gAliasDoc.ct <;> simp [List.count_singleton]
  rw [AliasDocument.State.references, List.count_append, copies, installed, ← Nat.add_assoc] at count frees
  rw [frees, count]
  exact ⟨rfl, by split_ifs <;> omega⟩

/-- A request for the document, and one for a file, which keeps its reference to the document. -/
def fileRequested : List Step :=
  [.set (.setRelease (some ⟨[97], [60], 7⟩)), .set (.setPublish 0),
    .check plainServer (parsedRequest (bytes "GET /a HTTP/1.1\r\n\r\n")), .grab 0, .answer 0,
    .check plainServer (parsedRequest (bytes "GET /b HTTP/1.1\r\n\r\n")), .grab 0, .answer 0]

theorem runs_references_file : ∃ s, run step fileRequested .initial = some s ∧ s.web.faults = [] ∧
    s.web.documents.map (·.ct) = [2] ∧ s.answered.map (·.copy.isSome) = [true, false] := by
  have ran : (run step fileRequested .initial).map
      (fun s => (s.web.documents.map (·.ct), s.answered.map (·.copy.isSome))) = some ([2], [true, false]) := by
    decide +kernel
  obtain ⟨s, ran, facts⟩ := Option.map_eq_some_iff.mp ran
  obtain ⟨counts, kept⟩ := Prod.mk.inj facts
  exact ⟨s, ran, (runs_references fileRequested s ran (by decide +kernel)).1, counts, kept⟩

end Pupnp.Web.AliasDocument.Requests
