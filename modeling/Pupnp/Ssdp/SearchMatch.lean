import Pupnp.Ssdp.CtrlPt
import Pupnp.Ssdp.Target

/-!
Which searches a reply is reported to. A search waits for the texts that are its target or that name
the same device or service type in a version that is not lower; the code looks for other texts, by
comparing the shorter of the two.
-/

namespace Pupnp.Ssdp
open Pupnp.CString Pupnp.Uri Pupnp.Http

/-- A search as `SearchByTarget` puts it in the list. -/
structure SsdpSearchArg.Pending (arg : SsdpSearchArg) : Prop where
  requestType : arg.requestType = ssdpRequestType1 arg.searchTarget
  accepted : arg.requestType ≠ .serror
  noNul : 0 ∉ arg.searchTarget

/-- A reply with the headers that a reply to a search has. -/
structure GoodReply (msg : HttpMessage) (destAddr : SockAddr) (st : List UInt8) : Prop where
  reply : msg.isRequest = false
  maxAge : (readExpires msg).1 = .ok
  target : replyTarget msg (readDiscovery msg destAddr) = some st

/-- The text names the device or service type of the target, in a version that is not lower. -/
def NotLower (target st : List UInt8) : Prop :=
  ∃ t s : SearchTarget, t.text = target ∧ s.text = st ∧ t.urn = s.urn ∧ t.ver ≤ s.ver

def Meets (target st : List UInt8) : Prop := st = target ∨ NotLower target st

def SSDP_ALL : List UInt8 := bytes "ssdp:all"

/-- A search for this target waits for a reply with this ST header. -/
def Wanted (target st : List UInt8) : Prop := target = SSDP_ALL ∨ Meets target st

/-- The kind of search that the target is taken for does not confuse it with the text. -/
def NotConfused (target st : List UInt8) : Prop :=
  match ssdpRequestType1 target with
  | .all => target = SSDP_ALL ∨ Meets target st
  | .rootdevice => ssdpRequestType1 (cstr st) = .rootdevice → Meets target st
  | .deviceudn => (st <+: target → st = target) ∧ ¬target ++ [0] <+: st ∧ (Meets target st → st = target)
  | .devicetype | .service => (st <+: target → st = target) ∧ (target <+: st ↔ Meets target st)
  | .serror => True

/-- What the reply is reported to of a single search. -/
def resultFor (msg : HttpMessage) (destAddr : SockAddr) (client : CtrlPt) (arg : SsdpSearchArg) : List Report :=
  ssdpHandleCtrlptMsg [{ client with ssdpSearchList := [arg] }] msg destAddr false

/-! ### Comparisons of texts that may be shorter than each other -/

theorem strncmp_cons (c d : UInt8) (s t : List UInt8) (n : Nat) : strncmp (c :: s) (d :: t) (n + 1) =
    if c ≠ d then (c.toNat : Int) - d.toNat else if c = 0 then 0 else strncmp s t n := rfl

theorem strncmp_nil (d : UInt8) (t : List UInt8) (n : Nat) :
    strncmp [] (d :: t) (n + 1) = if 0 ≠ d then (0 : Int) - d.toNat else 0 := by
  simp [strncmp]

theorem strncmp_zero {n : Nat} {target st : List UInt8} (noNul : 0 ∉ target) (inside : n ≤ st.length) :
    strncmp target st n = 0 ↔ st.take n <+: target ∨ target ++ [0] <+: st.take n := by
  induction n generalizing target st with
  | zero => simp [strncmp]
  | succ n ih =>
    cases st with
    | nil => simp at inside
    | cons d st =>
      have apart (x : UInt8) (differ : x ≠ d) : (x.toNat : Int) - d.toNat ≠ 0 := by
        intro same
        exact differ (UInt8.toNat_inj.mp (by omega))
      cases target with
      | nil =>
        rw [strncmp_nil, List.take_succ_cons, List.nil_append, List.cons_prefix_cons]
        by_cases ends : (0 : UInt8) = d
        · simp [ends]
        · rw [if_pos ends]
          simpa [ends] using apart 0 ends
      | cons c target =>
        have char : c ≠ 0 := fun zero => noNul (by rw [zero]; exact List.mem_cons_self)
        have later := @ih target st (fun member => noNul (List.mem_cons_of_mem c member))
          (by simpa using inside)
        rw [strncmp_cons, List.take_succ_cons, List.cons_append, List.cons_prefix_cons,
          List.cons_prefix_cons]
        by_cases same : c = d
        · subst same
          simpa [char] using later
        · rw [if_pos same]
          simpa [same, Ne.symm same] using apart c same

theorem strncmp_whole {target st : List UInt8} (noNul : 0 ∉ target) :
    strncmp target st st.length = 0 ↔ st <+: target ∨ target ++ [0] <+: st := by
  have compared := @strncmp_zero st.length target st noNul le_rfl
  rwa [List.take_length] at compared

theorem strncmp_shorter {target st : List UInt8} (noNul : 0 ∉ target) :
    strncmp target st (min st.length target.length) = 0 ↔ st <+: target ∨ target <+: st := by
  rw [strncmp_zero noNul (Nat.min_le_left _ _)]
  have outside : ¬target ++ [0] <+: st.take (min st.length target.length) := by
    intro starts
    have lengths := starts.length_le
    simp only [List.length_append, List.length_singleton, List.length_take] at lengths
    omega
  obtain shorter | longer := Nat.le_total st.length target.length
  · rw [Nat.min_eq_left shorter, List.take_length] at outside ⊢
    have whole : target <+: st → st <+: target := by
      intro starts
      rw [starts.eq_of_length_le shorter]
    tauto
  · rw [Nat.min_eq_right longer] at outside ⊢
    have size : (st.take target.length).length = target.length := by
      rw [List.length_take, Nat.min_eq_left longer]
    have start : st.take target.length <+: target ↔ target <+: st := by
      constructor
      · intro starts
        rw [← starts.eq_of_length size]
        exact List.take_prefix _ _
      · intro starts
        rw [← List.prefix_iff_eq_take.mp starts]
    have whole : st <+: target → target <+: st := by
      intro starts
      rw [starts.eq_of_length_le longer]
    tauto

/-! ### Versions of a type -/

theorem hasStr_digits {needle : String} {c : UInt8} (last : (bytes needle).getLast? = some c)
    (other : isDigit c = false) {digits : List UInt8} (isDigits : ∀ d ∈ digits, isDigit d = true)
    (front : List UInt8) : hasStr needle (front ++ digits) = hasStr needle front := by
  apply Bool.eq_iff_iff.mpr
  rw [hasStr_iff, hasStr_iff]
  constructor
  · rintro ⟨before, behind, whole⟩
    obtain ⟨more, fits, -⟩ | ⟨more, inside, rest⟩ := List.append_eq_append_iff.mp whole
    · exact ⟨before, more, fits.symm⟩
    · cases more using List.reverseRecOn with
      | nil => exact ⟨before, [], by rw [List.append_nil, inside, List.append_nil]⟩
      | append_singleton more d =>
        have ends := congrArg List.getLast? inside
        have nonempty : bytes needle ≠ [] := by
          intro empty
          rw [empty] at last
          cases last
        rw [List.getLast?_append, last, ← List.append_assoc, List.getLast?_concat] at ends
        obtain rfl : c = d := by simpa using ends
        have digit := isDigits c (by rw [rest]; simp)
        rw [other] at digit
        cases digit
  · intro inside
    exact inside.trans (List.prefix_append front digits).isInfix

namespace SearchTarget

theorem text_front (t : SearchTarget) : t.text = (t.urn ++ [COLON]) ++ decimalDigits t.ver := by
  rw [text, List.append_assoc, List.singleton_append]

theorem requestType_front (t : SearchTarget) :
    ssdpRequestType1 t.text = ssdpRequestType1 (t.urn ++ [COLON]) := by
  have same {needle : String} {c : UInt8} (last : (bytes needle).getLast? = some c)
      (other : isDigit c = false) : hasStr needle t.text = hasStr needle (t.urn ++ [COLON]) := by
    rw [text_front]
    exact hasStr_digits last other (decimalDigits_isDigit t.ver) _
  simp only [ssdpRequestType1]
  rw [@same ":all" 108 (by decide) (by decide), @same ":rootdevice" 101 (by decide) (by decide),
    @same "uuid:" 58 (by decide) (by decide), @same "urn:" 58 (by decide) (by decide),
    @same ":device:" 58 (by decide) (by decide), @same ":service:" 58 (by decide) (by decide)]

end SearchTarget

section
variable {target st : List UInt8}

theorem NotLower.requestType (notLower : NotLower target st) :
    ssdpRequestType1 st = ssdpRequestType1 target := by
  obtain ⟨t, s, rfl, rfl, urn, -⟩ := notLower
  rw [t.requestType_front, s.requestType_front, urn]

theorem Meets.noNul (noNul : 0 ∉ target) (wanted : Meets target st) : 0 ∉ st := by
  obtain rfl | ⟨t, s, -, rfl, -, -⟩ := wanted
  · exact noNul
  · intro member
    exact s.noNul 0 member rfl

theorem Meets.requestType (noNul : 0 ∉ target) (wanted : Meets target st) :
    ssdpRequestType1 (cstr st) = ssdpRequestType1 target := by
  rw [cstr_eq_self (wanted.noNul noNul)]
  obtain rfl | notLower := wanted
  · rfl
  · exact notLower.requestType

/-- A lower version is never the first digits of a higher one and not lower than it. -/
theorem Meets.eq_of_start (wanted : Meets target st) (starts : st <+: target) : st = target := by
  obtain same | ⟨t, s, rfl, rfl, urn, least⟩ := wanted
  · exact same
  · rw [t.text_front, s.text_front, urn, List.prefix_append_right_inj] at starts
    have most := decimalDigits_start_le starts
    rw [t.text_front, s.text_front, urn, Nat.le_antisymm most least]

end

/-! ### The kinds of searches -/

theorem requestType_all : ssdpRequestType1 SSDP_ALL = .all := by decide +kernel

theorem searchMatched_iff {arg : SsdpSearchArg} (pending : arg.Pending) (st : List UInt8) :
    (searchMatched arg (ssdpRequestType (cstr st)).2.1 st = true ↔ Wanted arg.searchTarget st) ↔
      NotConfused arg.searchTarget st := by
  obtain ⟨known, accepted, noNul⟩ := pending
  obtain ⟨target, cookie, requestType⟩ := arg
  change requestType = ssdpRequestType1 target at known
  change 0 ∉ target at noNul
  have kind : (ssdpRequestType (cstr st)).2.1 = ssdpRequestType1 (cstr st) := rfl
  have meets (other : ssdpRequestType1 target ≠ .all) : Wanted target st ↔ Meets target st := by
    apply or_iff_right
    rintro rfl
    exact other requestType_all
  rw [kind, NotConfused, ← known]
  cases requestType with
  | serror => exact absurd rfl accepted
  | all =>
    constructor
    · intro right
      exact right.mp rfl
    · exact iff_of_true rfl
  | rootdevice =>
    rw [meets (by rw [← known]; decide)]
    simp only [searchMatched, decide_eq_true_eq]
    constructor
    · exact Iff.mp
    · intro right
      exact ⟨right, fun wanted => (wanted.requestType noNul).trans known.symm⟩
  | deviceudn =>
    rw [meets (by rw [← known]; decide)]
    simp only [searchMatched, decide_eq_true_eq, strncmp_whole noNul]
    have inside (wanted : Meets target st) : ¬target ++ [0] <+: st := by
      intro starts
      exact wanted.noNul noNul (starts.subset (by simp))
    constructor
    · intro right
      have start (starts : st <+: target) : st = target := (right.mp (.inl starts)).eq_of_start starts
      refine ⟨start, fun starts => inside (right.mp (.inr starts)) starts, fun wanted => ?_⟩
      exact start ((right.mpr wanted).resolve_right (inside wanted))
    · rintro ⟨start, noEnd, same⟩
      constructor
      · intro matched
        exact .inl (start (matched.resolve_right noEnd))
      · intro wanted
        left
        rw [same wanted]
  | devicetype | service =>
    rw [meets (by rw [← known]; decide)]
    simp only [searchMatched, decide_eq_true_eq, strncmp_shorter noNul]
    constructor
    · intro right
      have start (starts : st <+: target) : st = target := (right.mp (.inl starts)).eq_of_start starts
      refine ⟨start, fun starts => right.mp (.inr starts), fun wanted => ?_⟩
      apply (right.mpr wanted).elim _ id
      intro starts
      rw [start starts]
    · rintro ⟨start, longer⟩
      constructor
      · intro matched
        exact matched.elim (fun starts => .inl (start starts)) longer.mp
      · intro wanted
        exact .inr (longer.mpr wanted)

/-! ### A whole reply -/

section
variable {msg : HttpMessage} {destAddr : SockAddr} {st : List UInt8}

theorem GoodReply.handle (good : GoodReply msg destAddr st) (clients : List CtrlPt) :
    ssdpHandleCtrlptMsg clients msg destAddr false =
      clients.flatMap (searchReports (readDiscovery msg destAddr) st) := by
  simp [ssdpHandleCtrlptMsg, good.reply, good.maxAge, good.target]

theorem GoodReply.resultFor (good : GoodReply msg destAddr st) (client : CtrlPt) (arg : SsdpSearchArg) :
    resultFor msg destAddr client arg =
      if searchMatched arg (ssdpRequestType (cstr st)).2.1 st then
        [⟨client.callback, .searchResult, some (readDiscovery msg destAddr), arg.cookie⟩] else [] := by
  rw [Ssdp.resultFor, good.handle, List.flatMap_singleton, searchReports, List.filter_singleton]
  cases searchMatched arg (ssdpRequestType (cstr st)).2.1 st <;> rfl

/-- Every search is looked at on its own, and the reply goes to the searches that wait for it and to no
other just where no search confuses its target with the text of the reply. -/
theorem ssdpHandleCtrlptMsg_searches {clients : List CtrlPt} (good : GoodReply msg destAddr st)
    (pending : ∀ client ∈ clients, ∀ arg ∈ client.ssdpSearchList, arg.Pending) :
    ssdpHandleCtrlptMsg clients msg destAddr false =
        clients.flatMap (fun client => client.ssdpSearchList.flatMap (resultFor msg destAddr client)) ∧
      ((∀ client ∈ clients, ∀ arg ∈ client.ssdpSearchList,
          (resultFor msg destAddr client arg =
              [⟨client.callback, .searchResult, some (readDiscovery msg destAddr), arg.cookie⟩] ↔
            Wanted arg.searchTarget st) ∧
          (resultFor msg destAddr client arg = [] ↔ ¬Wanted arg.searchTarget st)) ↔
        ∀ client ∈ clients, ∀ arg ∈ client.ssdpSearchList, NotConfused arg.searchTarget st) := by
  constructor
  · rw [good.handle]
    congr 1
    funext client
    rw [searchReports]
    induction client.ssdpSearchList with
    | nil => rfl
    | cons arg args ih =>
        rw [List.flatMap_cons, ← ih, good.resultFor, List.filter_cons]
        split <;> rfl
  · apply forall₂_congr
    intro client isClient
    apply forall₂_congr
    intro arg member
    rw [← searchMatched_iff (pending client isClient arg member) st, good.resultFor]
    split
    next matched => simp [matched]
    next other => simp [other]

end

/-! ### Two replies -/

def deviceAddr : SockAddr := ⟨.inet, [192, 168, 0, 7], 1900, 0⟩

/-- The answer of a device with this ST header. -/
def answer (st : String) : HttpMessage :=
  { method := .unknown, uri := none, urlbuf := [], requestMethod := .msearch, statusCode := 200
    statusMsg := bytes "OK", amountDiscarded := 0, isRequest := false, majorVersion := 1, minorVersion := 1
    headers :=
      [⟨bytes "CACHE-CONTROL", .cacheControl, bytes "max-age=1800"⟩,
        ⟨bytes "LOCATION", .location, bytes "http://192.168.0.7/d.xml"⟩, ⟨bytes "ST", .st, bytes st⟩,
        ⟨bytes "USN", .usn, bytes "uuid:device-1"⟩]
    entity := ⟨none, 0⟩ }

theorem light_domain : IsName (bytes "a") := by decide
theorem light_type : IsName (bytes "Light") := by decide

def light (ver : Nat) (positive : 0 < ver) : SearchTarget :=
  ⟨.device, bytes "a", bytes "Light", ver, light_domain, light_type, positive⟩

def lightSearch : SsdpSearchArg := ⟨bytes "urn:a:device:Light:2", 5, .devicetype⟩

def udnSearch : SsdpSearchArg := ⟨bytes "uuid:device-10", 5, .deviceudn⟩

theorem ssdpHandleCtrlptMsg_searches_light :
    resultFor (answer "urn:a:device:Light:20") deviceAddr ⟨1, 2, [lightSearch]⟩ lightSearch =
        [⟨1, .searchResult, some (readDiscovery (answer "urn:a:device:Light:20") deviceAddr), 5⟩] ↔
      Wanted lightSearch.searchTarget (bytes "urn:a:device:Light:20") := by
  have good : GoodReply (answer "urn:a:device:Light:20") deviceAddr (bytes "urn:a:device:Light:20") :=
    ⟨rfl, by decide +kernel, by decide +kernel⟩
  have pending : lightSearch.Pending := ⟨by decide +kernel, by decide, by decide⟩
  have higher : NotLower lightSearch.searchTarget (bytes "urn:a:device:Light:20") :=
    ⟨light 2 (by decide), light 20 (by decide), by decide +kernel, by decide +kernel, rfl, by decide⟩
  have kind : ssdpRequestType1 lightSearch.searchTarget = .devicetype := by decide +kernel
  have clear : NotConfused lightSearch.searchTarget (bytes "urn:a:device:Light:20") := by
    rw [NotConfused, kind]
    exact ⟨fun starts => absurd starts (by decide), iff_of_true (by decide) (.inr higher)⟩
  have searches := @ssdpHandleCtrlptMsg_searches _ _ _ [⟨1, 2, [lightSearch]⟩] good (by simpa using pending)
  exact (searches.2.mpr (by simpa using clear) _ List.mem_cons_self lightSearch List.mem_cons_self).1

/-- A reply from one device ends up at the search for another, whose name only begins like its own, and
the reply from a light of a higher version at no search for lights of a lower one. -/
theorem ssdpHandleCtrlptMsg_confused :
    (udnSearch.Pending ∧ GoodReply (answer "uuid:device-1") deviceAddr (bytes "uuid:device-1") ∧
      resultFor (answer "uuid:device-1") deviceAddr ⟨1, 2, [udnSearch]⟩ udnSearch =
        [⟨1, .searchResult, some (readDiscovery (answer "uuid:device-1") deviceAddr), 5⟩] ∧
      ¬Wanted udnSearch.searchTarget (bytes "uuid:device-1")) ∧
    lightSearch.Pending ∧ GoodReply (answer "urn:a:device:Light:3") deviceAddr (bytes "urn:a:device:Light:3") ∧
      resultFor (answer "urn:a:device:Light:3") deviceAddr ⟨1, 2, [lightSearch]⟩ lightSearch = [] ∧
      Wanted lightSearch.searchTarget (bytes "urn:a:device:Light:3") := by
  have unwanted : ¬Wanted udnSearch.searchTarget (bytes "uuid:device-1") := by
    rintro (all | same | ⟨t, s, text, -⟩)
    · exact absurd all (by decide)
    · exact absurd same (by decide)
    · have first := congrArg (·[1]?) text
      simp [SearchTarget.text, SearchTarget.urn, udnSearch, bytes] at first
  have higher : NotLower lightSearch.searchTarget (bytes "urn:a:device:Light:3") :=
    ⟨light 2 (by decide), light 3 (by decide), by decide +kernel, by decide +kernel, rfl, by decide⟩
  exact ⟨⟨⟨by decide +kernel, by decide, by decide⟩, ⟨rfl, by decide +kernel, by decide +kernel⟩,
    by decide +kernel, unwanted⟩, ⟨by decide +kernel, by decide, by decide⟩,
    ⟨rfl, by decide +kernel, by decide +kernel⟩, by decide +kernel, .inr (.inr higher)⟩

end Pupnp.Ssdp
