import Pupnp.Soap.Paths
import Pupnp.Ssdp.RoundTrip

/-! When `SoapSendAction` reports success. -/

namespace Pupnp.Soap
open Pupnp.CString Pupnp.Uri Pupnp.Http
open Pupnp.Ixml (Node Document NodesRead nodesContent kept Printable)

def StandsAlone : Node → Prop
  | .element tag attrs children => Ixml.Standalone tag attrs children
  | _ => False

def Response (name : List UInt8) (root response : Node) : Prop :=
  FirstPath [bytes "Body", name ++ bytes "Response"] root response

def Fault (root errorNode : Node) (text : List UInt8) : Prop :=
  FirstPath [bytes "Body", bytes "Fault", bytes "detail", bytes "UPnPError"] root errorNode ∧
    ∃ code, FirstNamed (bytes "errorCode") errorNode code ∧ getNodeValue code = some text

section Sent
variable (errorChar : Int) (caller : Caller) (actionUrl serviceType : List UInt8) (actionNode : List Node)

/-- The name of the action and the root of the document that answers it. -/
def Answered (name : List UInt8) (root : Node) : Prop :=
  ∃ answer, soapExchange caller actionUrl serviceType actionNode = .ok (name, answer) ∧
    rootNode errorChar answer = some root

/-- Success is a response in an envelope that the caller gets as it was received, and no fault is one. -/
structure SuccessRight : Prop where
  response : (soapSendAction errorChar caller actionUrl serviceType actionNode).1 = 0 →
    ∃ name root response doc, Answered errorChar caller actionUrl serviceType actionNode name root ∧
      Named (bytes "Envelope") root ∧ Response name root response ∧
      (soapSendAction errorChar caller actionUrl serviceType actionNode).2 = some doc ∧
      nodesContent doc.children = nodesContent [response]
  fault : ∀ name root errorNode text, Answered errorChar caller actionUrl serviceType actionNode name root →
    (∀ response, ¬Response name root response) → Fault root errorNode text →
      (soapSendAction errorChar caller actionUrl serviceType actionNode).1 ≠ 0

/-- A response that can be read again is in an envelope, and has no blank text and nothing behind a text; the code
of an error that can be read again does not start like a zero. -/
structure AnswerSound : Prop where
  response : ∀ name root response, Answered errorChar caller actionUrl serviceType actionNode name root →
    Response name root response → StandsAlone response →
      Named (bytes "Envelope") root ∧ Printable (nodesContent [response])
  fault : ∀ name root errorNode text, Answered errorChar caller actionUrl serviceType actionNode name root →
    (∀ response, ¬Response name root response) → Fault root errorNode text → StandsAlone errorNode → atoi text ≠ 0

end Sent

/-! ### Codes that are never 0 -/

theorem soapRequestAndResponse_error {exchange : Exchange} {request : List UInt8} {code : Int}
    (failed : soapRequestAndResponse exchange request = .error code) : code ≠ 0 := by
  unfold soapRequestAndResponse at failed
  dsimp only at failed
  split at failed
  next first =>
    cases failed
    exact first
  next =>
    split at failed
    next =>
      split at failed
      next =>
        cases failed
        decide
      next =>
        split at failed
        next second =>
          cases failed
          exact second
        next => cases failed
    next => cases failed

theorem soapExchange_error {caller : Caller} {actionUrl serviceType : List UInt8} {actionNode : List Node}
    {code : Int} (failed : soapExchange caller actionUrl serviceType actionNode = .error code) : code ≠ 0 := by
  unfold soapExchange at failed
  dsimp only at failed
  split at failed
  next =>
    cases failed
    decide
  next =>
    split at failed
    next =>
      cases failed
      decide
    next =>
      split at failed
      next =>
        cases failed
        decide
      next =>
        rename_i url _
        cases sent : soapRequestAndResponse caller.exchange _ with
        | error code' =>
          rw [sent] at failed
          cases failed
          exact soapRequestAndResponse_error sent
        | ok answer =>
          rw [sent] at failed
          cases failed

/-! ### Reading the answer -/

section Answers
variable {errorChar : Int}

theorem rootNode_read (char_ : errorChar ≤ 127) {answer : Answer} {root : Node}
    (found : rootNode errorChar answer = some root) : NodesRead errorChar [root] := by
  unfold rootNode at found
  split at found
  next => cases found
  next =>
    split at found
    next => cases found
    next doc parsed =>
      have good := Ixml.ixmlParseBufferEx_read char_ parsed
      exact nodesRead_mem good (List.mem_of_head? found)

/-- Printed and parsed, an element either is refused or loses what `kept` leaves out. -/
theorem reparsed {names : List (List UInt8)} {first name : List UInt8} {c : UInt8} {root node : Node}
    (good : NodesRead errorChar [root]) (path : FirstPath (first :: names) root node)
    (last : (first :: names).getLast? = some name) (ends : name.getLast? = some c) (noText : c ≠ 116)
    (noSection : c ≠ 110) :
    (StandsAlone node ∧ ∃ doc, Ixml.ixmlParseBufferEx errorChar (Ixml.ixmlPrintNode node) = .ok doc ∧
      nodesContent doc.children = kept (nodesContent [node])) ∨
    (¬StandsAlone node ∧ ∃ stop, Ixml.ixmlParseBufferEx errorChar (Ixml.ixmlPrintNode node) = .error stop) := by
  have read := path.nodesRead good
  obtain ⟨tag, attrs, children, rfl⟩ := (path.named last).element ends noText noSection
  obtain ⟨accepted, parsed⟩ := Ixml.ixmlPrintNode_parsed read
  cases result : Ixml.ixmlParseBufferEx errorChar (Ixml.ixmlPrintNode (.element tag attrs children)) with
  | ok doc =>
    obtain ⟨alone, content⟩ := accepted doc result
    exact .inl ⟨alone, doc, rfl, content⟩
  | error stop =>
    refine .inr ⟨fun alone => ?_, stop, rfl⟩
    obtain ⟨doc, read⟩ := parsed alone
    rw [result] at read
    cases read

end Answers

section Codes
variable {errorChar : Int} {caller : Caller} {actionUrl serviceType : List UInt8} {actionNode : List Node}

theorem soapSendAction_response (char_ : errorChar ≤ 127) {name : List UInt8} {root response : Node}
    (answered : Answered errorChar caller actionUrl serviceType actionNode name root)
    (found : Response name root response) :
    (StandsAlone response ∧ ∃ doc, soapSendAction errorChar caller actionUrl serviceType actionNode = (0, some doc) ∧
      nodesContent doc.children = kept (nodesContent [response])) ∨
    (¬StandsAlone response ∧
      soapSendAction errorChar caller actionUrl serviceType actionNode = (UPNP_E_BAD_RESPONSE, none)) := by
  obtain ⟨answer, exchanged, rooted⟩ := answered
  have deep : domFindDeepNode (responsePath (name ++ bytes "Response")) root = some response :=
    (domFindDeepNode_iff _ _ _).mpr found
  have last : (name ++ bytes "Response").getLast? = some 101 := by
    have word : (bytes "Response").getLast? = some 101 := by decide
    rw [List.getLast?_append, word]
    rfl
  obtain ⟨alone, doc, parsed, content⟩ | ⟨refused, stop, failed⟩ :=
    reparsed (rootNode_read char_ rooted) found rfl last (by decide) (by decide)
  · refine .inl ⟨alone, doc, ?_, content⟩
    simp only [soapSendAction, exchanged, getResponseValue, rooted, deep, parsed]
  · refine .inr ⟨refused, ?_⟩
    simp only [soapSendAction, exchanged, getResponseValue, rooted, deep, failed]

theorem soapSendAction_fault (char_ : errorChar ≤ 127) {name : List UInt8} {root errorNode : Node}
    {text : List UInt8} (answered : Answered errorChar caller actionUrl serviceType actionNode name root)
    (noResponse : ∀ response, ¬Response name root response) (fault : Fault root errorNode text) :
    (soapSendAction errorChar caller actionUrl serviceType actionNode).1 = 0 ↔
      StandsAlone errorNode ∧ atoi text = 0 := by
  obtain ⟨answer, exchanged, rooted⟩ := answered
  obtain ⟨path, code, first, value⟩ := fault
  have nothing : domFindDeepNode (responsePath (name ++ bytes "Response")) root = none := by
    cases found : domFindDeepNode (responsePath (name ++ bytes "Response")) root with
    | none => rfl
    | some response => exact absurd ((domFindDeepNode_iff _ _ _).mp found) (noResponse response)
  have deep : domFindDeepNode errorPath root = some errorNode := (domFindDeepNode_iff _ _ _).mpr path
  have read : (domFindNode (bytes "errorCode") errorNode).bind getNodeValue = some text := by
    rw [domFindNode_iff.mpr first]
    exact value
  have last : (bytes "UPnPError").getLast? = some 114 := by decide
  simp only [soapSendAction, exchanged, getResponseValue, rooted, nothing, deep, read]
  by_cases large : 400 < atoi text
  · simp only [if_pos large]
    constructor
    · intro zero
      omega
    · intro zero
      omega
  · simp only [if_neg large]
    obtain ⟨alone, doc, parsed, -⟩ | ⟨refused, stop, failed⟩ :=
      reparsed (rootNode_read char_ rooted) path rfl last (by decide) (by decide)
    · simp only [parsed, alone, true_and]
    · simp only [failed, refused, false_and, iff_false]
      decide

theorem soapSendAction_zero (zero : (soapSendAction errorChar caller actionUrl serviceType actionNode).1 = 0) :
    ∃ name root, Answered errorChar caller actionUrl serviceType actionNode name root ∧
      ((∃ response, Response name root response) ∨ ∃ errorNode text, Fault root errorNode text) := by
  cases exchanged : soapExchange caller actionUrl serviceType actionNode with
  | error code =>
    simp only [soapSendAction, exchanged] at zero
    exact absurd zero (soapExchange_error exchanged)
  | ok result =>
    obtain ⟨name, answer⟩ := result
    simp only [soapSendAction, exchanged] at zero
    cases rooted : rootNode errorChar answer with
    | none =>
      simp only [getResponseValue, rooted] at zero
      cases zero
    | some root =>
      refine ⟨name, root, ⟨answer, exchanged, rooted⟩, ?_⟩
      cases deep : domFindDeepNode (responsePath (name ++ bytes "Response")) root with
      | some response => exact .inl ⟨response, (domFindDeepNode_iff _ _ _).mp deep⟩
      | none =>
        cases path : domFindDeepNode errorPath root with
        | none =>
          simp only [getResponseValue, rooted, deep, path] at zero
          cases zero
        | some errorNode =>
          cases read : (domFindNode (bytes "errorCode") errorNode).bind getNodeValue with
          | none =>
            simp only [getResponseValue, rooted, deep, path, read] at zero
            cases zero
          | some text =>
            obtain ⟨code, first, value⟩ := Option.bind_eq_some_iff.mp read
            exact .inr ⟨errorNode, text, (domFindDeepNode_iff _ _ _).mp path, code,
              domFindNode_iff.mp first, value⟩

theorem Answered.unique {name name' : List UInt8} {root root' : Node}
    (answered : Answered errorChar caller actionUrl serviceType actionNode name root)
    (answered' : Answered errorChar caller actionUrl serviceType actionNode name' root') :
    name = name' ∧ root = root' := by
  obtain ⟨answer, exchanged, rooted⟩ := answered
  obtain ⟨answer', exchanged', rooted'⟩ := answered'
  rw [exchanged] at exchanged'
  cases exchanged'
  rw [rooted] at rooted'
  exact ⟨rfl, Option.some.inj rooted'⟩

theorem soapSendAction_success (char_ : errorChar ≤ 127) :
    SuccessRight errorChar caller actionUrl serviceType actionNode ↔
      AnswerSound errorChar caller actionUrl serviceType actionNode := by
  constructor
  · intro right
    refine ⟨?_, ?_⟩
    · intro name root response answered found alone
      obtain ⟨-, doc, sent, content⟩ | ⟨refused, -⟩ := soapSendAction_response char_ answered found
      · have zero : (soapSendAction errorChar caller actionUrl serviceType actionNode).1 = 0 := by rw [sent]
        obtain ⟨name', root', response', doc', answered', envelope, found', given, same⟩ := right.response zero
        obtain ⟨rfl, rfl⟩ := answered.unique answered'
        obtain rfl := found.unique found'
        rw [sent] at given
        obtain rfl := Option.some.inj given
        exact ⟨envelope, (Ixml.kept_eq_iff _).mp (content.symm.trans same)⟩
      · exact absurd alone refused
    · intro name root errorNode text answered noResponse fault alone zero
      exact right.fault name root errorNode text answered noResponse fault
        ((soapSendAction_fault char_ answered noResponse fault).mpr ⟨alone, zero⟩)
  · intro sound
    refine ⟨?_, ?_⟩
    · intro zero
      obtain ⟨name, root, answered, found⟩ := soapSendAction_zero zero
      by_cases response : ∃ response, Response name root response
      · obtain ⟨response, found⟩ := response
        obtain ⟨alone, doc, sent, content⟩ | ⟨-, failed⟩ := soapSendAction_response char_ answered found
        · obtain ⟨envelope, printable⟩ := sound.response name root response answered found alone
          refine ⟨name, root, response, doc, answered, envelope, found, by rw [sent], ?_⟩
          rw [content, (Ixml.kept_eq_iff _).mpr printable]
        · rw [failed] at zero
          cases zero
      · have noResponse : ∀ response, ¬Response name root response := not_exists.mp response
        obtain ⟨errorNode, text, fault⟩ := found.resolve_left response
        obtain ⟨alone, code⟩ := (soapSendAction_fault char_ answered noResponse fault).mp zero
        exact absurd code (sound.fault name root errorNode text answered noResponse fault alone)
    · intro name root errorNode text answered noResponse fault zero
      obtain ⟨alone, code⟩ := (soapSendAction_fault char_ answered noResponse fault).mp zero
      exact sound.fault name root errorNode text answered noResponse fault alone code

end Codes

/-! ### A response without an envelope -/

/-- A control point whose device answers every request with one text. -/
def answeredWith (text : List UInt8) : Caller where
  resolver := ⟨fun _ => some ⟨.inet, [127, 0, 0, 1], 80, 0⟩, fun _ _ => none, 0⟩
  env := Ssdp.lightEnv
  exchange := fun _ _ => (0, {
    msg := {
      method := .put
      uri := none
      urlbuf := []
      requestMethod := .soapPost
      statusCode := 200
      statusMsg := []
      amountDiscarded := 0
      isRequest := false
      majorVersion := 1
      minorVersion := 1
      headers := [⟨bytes "CONTENT-TYPE", .contentType, bytes "text/xml"⟩]
      entity := ⟨some 0, text.length⟩ }
    raw := text })

def plainAction : List Node :=
  [.element ⟨0, bytes "u:X", some (bytes "u"), bytes "X"⟩ [⟨bytes "xmlns:u", bytes "a", none, none⟩] []]

def plainTag (addr : Nat) (name : String) : Ixml.Tag := ⟨addr, bytes name, none, bytes name⟩

def nested (outer middle inner : Ixml.Tag) : Node := .element outer [] [.element middle [] [.element inner [] []]]

def nestedTags : Option Node → List Ixml.Tag
  | some (.element outer [] [.element middle [] [.element inner [] []]]) => [outer, middle, inner]
  | _ => []

theorem nestedTags_eq {node : Option Node} {outer middle inner : Ixml.Tag}
    (tags : nestedTags node = [outer, middle, inner]) : node = some (nested outer middle inner) := by
  unfold nestedTags at tags
  split at tags
  next =>
    cases tags
    rfl
  next => cases tags

theorem answeredWith_answered {text : List UInt8} {outer middle inner : Ixml.Tag}
    (tags : nestedTags (rootNode 0 ((answeredWith text).exchange [] .soapPost).2) = [outer, middle, inner]) :
    Answered 0 (answeredWith text) (bytes "http://h/") (bytes "a") plainAction (bytes "X")
      (nested outer middle inner) := by
  have printed : Ixml.printSiblings plainAction = bytes "<u:X xmlns:u=\"a\"></u:X>\r\n" := by
    simp [plainAction, Ixml.printSiblings, Ixml.printStartTag, Ixml.printEndTag, Ixml.printAttributes,
      Ixml.copyWithEscape]
    decide
  have name : getActionName (bytes "<u:X xmlns:u=\"a\"></u:X>\r\n") = some (bytes "X") := by
    with_unfolding_all decide
  have url : Gena.Subscribe.httpFixStrUrl (answeredWith text).resolver (cstr (bytes "http://h/")) ≠ none := by
    change Gena.Subscribe.httpFixStrUrl (answeredWith []).resolver (cstr (bytes "http://h/")) ≠ none
    decide +kernel
  refine ⟨((answeredWith text).exchange [] .soapPost).2, ?_, nestedTags_eq tags⟩
  unfold soapExchange
  rw [printed]
  dsimp only
  rw [if_neg (by decide), name]
  dsimp only
  split
  next none => exact absurd none url
  next => rfl

theorem nested_response {outer : Ixml.Tag} (addr addr' : Nat) :
    Response (bytes "X") (nested outer (plainTag addr "Body") (plainTag addr' "XResponse"))
      (.element (plainTag addr' "XResponse") [] []) := by
  refine ⟨_, ⟨[], [], rfl, .inl rfl, fun other none => by cases none⟩, ?_⟩
  exact ⟨_, ⟨[], [], rfl, .inl rfl, fun other none => by cases none⟩, rfl⟩

theorem nested_alone (addr : Nat) : StandsAlone (.element (plainTag addr "XResponse") [] []) := by
  change ∃ q, Ixml.enterSiblings _ _ = .ok q
  rw [Ixml.enterSiblings_element]
  simp only [Ixml.enterSiblings]
  exact ⟨_, rfl⟩

theorem soapSendAction_noEnvelope : ¬SuccessRight 0 (answeredWith (bytes "<F><Body><XResponse/></Body></F>"))
    (bytes "http://h/") (bytes "a") plainAction := by
  intro right
  have answered := @answeredWith_answered (bytes "<F><Body><XResponse/></Body></F>") (plainTag 0 "F")
    (plainTag 1 "Body") (plainTag 2 "XResponse") (by decide +kernel)
  have small : (0 : Int) ≤ 127 := by decide
  obtain ⟨-, doc, sent, -⟩ | ⟨refused, -⟩ := soapSendAction_response small answered (nested_response 1 2)
  · obtain ⟨name, root, response, doc', answered', envelope, -⟩ := right.response (by rw [sent])
    obtain ⟨-, rfl⟩ := answered.unique answered'
    obtain same | ⟨front, -, -, text⟩ := envelope
    · exact absurd same (by decide)
    · have lengths := congrArg List.length text
      rw [List.length_append] at lengths
      have short : (nodeName (nested (plainTag 0 "F") (plainTag 1 "Body") (plainTag 2 "XResponse"))).length = 1 := by
        decide
      have long : (58 :: bytes "Envelope").length = 9 := by decide
      omega
  · exact refused (nested_alone 2)

theorem soapSendAction_success_envelope :
    SuccessRight 0 (answeredWith (bytes "<Envelope><Body><XResponse/></Body></Envelope>")) (bytes "http://h/")
      (bytes "a") plainAction := by
  have answered := @answeredWith_answered (bytes "<Envelope><Body><XResponse/></Body></Envelope>")
    (plainTag 0 "Envelope") (plainTag 1 "Body") (plainTag 2 "XResponse") (by decide +kernel)
  refine (soapSendAction_success (by decide)).mpr ⟨?_, ?_⟩
  · intro name root response answered' found alone
    obtain ⟨rfl, rfl⟩ := answered.unique answered'
    obtain rfl := found.unique (nested_response 1 2)
    refine ⟨.inl rfl, ?_⟩
    simp [nodesContent, Printable]
  · intro name root errorNode text answered' noResponse
    obtain ⟨rfl, rfl⟩ := answered.unique answered'
    exact absurd (nested_response 1 2) (noResponse _)

end Pupnp.Soap
