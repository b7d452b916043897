import Pupnp.Gena.Device
import Pupnp.Library.Buffer

/-!
The property set of an event, which `GeneratePropertySet` puts together in a buffer. The size of the buffer is summed up
before, in a `size_t`, whose number of bits the model leaves open. There is no result where a byte would be stored
behind the end of the buffer.
-/

namespace Pupnp.Gena
open Pupnp.CString

def XML_SUCCESS : Int := 0

def propertySetHeader : List UInt8 := bytes "<e:propertyset xmlns:e=\"urn:schemas-upnp-org:event-1-0\">\n"

def propertySetEnd : List UInt8 := bytes "</e:propertyset>\n\n"

/-- `malloc` may have no memory. If it has, it returns the number of bytes that it was asked for. -/
structure ByteMalloc where
  malloc : Nat → Option (List UInt8)
  length : ∀ size buffer, malloc size = some buffer → buffer.length = size

def sizeAdd (bits a b : Nat) : Nat := (a + b) % 2 ^ bits

def addVariableSize (bits : Nat) (names values : List (List UInt8)) (size counter : Nat) : Option Nat := do
  let name ← names[counter]?
  let value ← values[counter]?
  let size := sizeAdd bits size (bytes "<e:property>\n</e:property>\n").length
  some (sizeAdd bits size (2 * (cstr name).length + (cstr value).length + (bytes "<></>\n").length))

def propertySetSize (bits : Nat) (names values : List (List UInt8)) (count : Int) : Option Nat :=
  (List.range count.toNat).foldlM (addVariableSize bits names values)
    (sizeAdd bits (propertySetHeader.length % 2 ^ bits) propertySetEnd.length)

def variableText (name value : List UInt8) : List UInt8 :=
  bytes "<" ++ (cstr name ++ (bytes ">" ++ (cstr value ++ (bytes "</" ++ (cstr name ++ bytes ">\n</e:property>\n")))))

def writeVariable (names values : List (List UInt8)) (buffer : List UInt8) (counter : Nat) : Option (List UInt8) := do
  let name ← names[counter]?
  let value ← values[counter]?
  let buffer ← strcat buffer (bytes "<e:property>\n")
  strcat buffer (variableText name value)

def writePropertySet (names values : List (List UInt8)) (count : Int) (buffer : List UInt8) : Option (List UInt8) := do
  let buffer ← strcpy buffer propertySetHeader
  let buffer ← (List.range count.toNat).foldlM (writeVariable names values) buffer
  strcat buffer propertySetEnd

def ixmlCloneDOMString (alloc : ByteMalloc) (src : List UInt8) : Option (List UInt8) :=
  (alloc.malloc ((cstr src).length + 1)).map fun _ => cstr src

/-- `GeneratePropertySet`: the code and `*out`, which is NULL before. -/
def generatePropertySet (bits : Nat) (alloc : ByteMalloc) (names values : List (List UInt8)) (count : Int) :
    Option (Int × Option (List UInt8)) := do
  let size ← propertySetSize bits names values count
  match alloc.malloc (sizeAdd bits size 1) with
  | none => some (UPNP_E_OUTOF_MEMORY, none)
  | some buffer =>
      let buffer ← memset buffer (sizeAdd bits size 1)
      let buffer ← writePropertySet names values count buffer
      some (XML_SUCCESS, ixmlCloneDOMString alloc buffer)

/-! ### The text and its length -/

def propertyText (name value : List UInt8) : List UInt8 := bytes "<e:property>\n" ++ variableText name value

def propertySetText (vars : List (List UInt8 × List UInt8)) : List UInt8 :=
  propertySetHeader ++ (vars.flatMap fun var => propertyText var.1 var.2) ++ propertySetEnd

/-- The length of the text: 75 bytes, and 33 for each variable beside its value and twice its name. -/
def propertySetLength (vars : List (List UInt8 × List UInt8)) : Nat :=
  75 + (vars.map fun var => 33 + 2 * (cstr var.1).length + (cstr var.2).length).sum

theorem propertyText_length (name value : List UInt8) :
    (propertyText name value).length = 33 + 2 * (cstr name).length + (cstr value).length := by
  have literals : (bytes "<e:property>\n").length = 13 ∧ (bytes "<").length = 1 ∧ (bytes ">").length = 1 ∧
      (bytes "</").length = 2 ∧ (bytes ">\n</e:property>\n").length = 16 := by decide
  simp only [propertyText, variableText, List.length_append, literals]
  omega

theorem propertySetText_length (vars : List (List UInt8 × List UInt8)) :
    (propertySetText vars).length = propertySetLength vars := by
  have literals : propertySetHeader.length = 57 ∧ propertySetEnd.length = 18 := by decide
  simp only [propertySetText, propertySetLength, List.length_append, List.length_flatMap, propertyText_length, literals]
  omega

theorem variableText_noNul (name value : List UInt8) : 0 ∉ variableText name value := by
  have literals : 0 ∉ bytes "<" ∧ 0 ∉ bytes ">" ∧ 0 ∉ bytes "</" ∧ 0 ∉ bytes ">\n</e:property>\n" := by decide
  simp only [variableText, List.mem_append, literals, cstr_noNul, or_self, not_false_iff]

theorem foldlM_range {α β : Type} {items : List β} {step : α → Nat → Option α} {f : α → β → Option α}
    (reads : ∀ i item, items[i]? = some item → ∀ acc, step acc i = f acc item) {count : Nat}
    (inside : count ≤ items.length) (acc : α) :
    (List.range count).foldlM step acc = (items.take count).foldlM f acc := by
  induction count with
  | zero => rfl
  | succ i ih =>
    have item : items[i]? = some items[i] := List.getElem?_eq_getElem inside
    rw [List.range_succ, List.take_succ_eq_append_getElem inside, List.foldlM_append, List.foldlM_append, ih (by omega)]
    simp only [List.foldlM_cons, List.foldlM_nil, reads i _ item]

section Sums
variable {bits : Nat} {names values : List (List UInt8)} {count : Int}

def sentVariables (names values : List (List UInt8)) (count : Int) : List (List UInt8 × List UInt8) :=
  (names.zip values).take count.toNat

/-- Both arrays have as many entries as there are variables. -/
def Named (names values : List (List UInt8)) (count : Int) : Prop :=
  count ≤ names.length ∧ count ≤ values.length

theorem sizeAdd_mod (a b : Nat) : sizeAdd bits (a % 2 ^ bits) b = (a + b) % 2 ^ bits := Nat.mod_add_mod a _ b

theorem sums_variables (vars : List (List UInt8 × List UInt8)) (size : Nat) :
    vars.foldlM (fun size var => some (sizeAdd bits (sizeAdd bits size (bytes "<e:property>\n</e:property>\n").length)
        (2 * (cstr var.1).length + (cstr var.2).length + (bytes "<></>\n").length))) (size % 2 ^ bits) =
      some ((size + (vars.map fun var => 33 + 2 * (cstr var.1).length + (cstr var.2).length).sum) % 2 ^ bits) := by
  have literals : (bytes "<e:property>\n</e:property>\n").length = 27 ∧ (bytes "<></>\n").length = 6 := by decide
  induction vars generalizing size with
  | nil => rfl
  | cons var vars ih =>
    rw [List.foldlM_cons, sizeAdd_mod, sizeAdd_mod, Option.bind_eq_bind, Option.bind_some, ih, literals.1, literals.2,
      List.map_cons, List.sum_cons]
    congr 2
    omega

theorem zip_reads {i : Nat} {var : List UInt8 × List UInt8} (item : (names.zip values)[i]? = some var) :
    names[i]? = some var.1 ∧ values[i]? = some var.2 := List.getElem?_zip_eq_some.mp item

theorem propertySetSize_eq (named : Named names values count) :
    propertySetSize bits names values count =
      some (propertySetLength (sentVariables names values count) % 2 ^ bits) := by
  have inside : count.toNat ≤ (names.zip values).length := by
    rw [List.length_zip]
    obtain ⟨named, valued⟩ := named
    omega
  have literals : propertySetHeader.length = 57 ∧ propertySetEnd.length = 18 := by decide
  have reads (i : Nat) (var : List UInt8 × List UInt8) (item : (names.zip values)[i]? = some var) (size : Nat) :
      addVariableSize bits names values size i = some (sizeAdd bits
        (sizeAdd bits size (bytes "<e:property>\n</e:property>\n").length)
        (2 * (cstr var.1).length + (cstr var.2).length + (bytes "<></>\n").length)) := by
    rw [addVariableSize, (zip_reads item).1, (zip_reads item).2]
    rfl
  rw [propertySetSize, foldlM_range reads inside, sizeAdd_mod, sums_variables, literals.1, literals.2]
  rfl

end Sums

/-! ### What is written -/

section Writes
variable {names values : List (List UInt8)} {count : Int}

theorem writes_variables {size : Nat} (vars : List (List UInt8 × List UInt8)) {text : List UInt8}
    {result : Option (List UInt8)} (fills : Fills size text result) :
    Fills size (text ++ vars.flatMap fun var => propertyText var.1 var.2)
      (result.bind (vars.foldlM (fun buffer var =>
        (strcat buffer (bytes "<e:property>\n")).bind (strcat · (variableText var.1 var.2))))) := by
  induction vars generalizing text result with
  | nil =>
    rw [List.flatMap_nil, List.append_nil]
    simpa using fills
  | cons var vars ih =>
    have one := (fills.strcat (bytes "<e:property>\n")).strcat (variableText var.1 var.2)
    rw [cstr_eq_self (variableText_noNul _ _), cstr_eq_self (by decide), List.append_assoc] at one
    have rest := ih one
    rw [Option.bind_assoc, Option.bind_assoc] at rest
    simp only [List.flatMap_cons, ← List.append_assoc text, List.foldlM_cons, Option.bind_eq_bind, Option.bind_assoc]
    exact rest

theorem writePropertySet_fills (named : Named names values count) {size : Nat} {buffer : List UInt8}
    (length : buffer.length = size) :
    Fills size (propertySetText (sentVariables names values count)) (writePropertySet names values count buffer) := by
  have inside : count.toNat ≤ (names.zip values).length := by
    rw [List.length_zip]
    obtain ⟨named, valued⟩ := named
    omega
  have reads (i : Nat) (var : List UInt8 × List UInt8) (item : (names.zip values)[i]? = some var)
      (buffer : List UInt8) : writeVariable names values buffer i =
        (strcat buffer (bytes "<e:property>\n")).bind (strcat · (variableText var.1 var.2)) := by
    rw [writeVariable, (zip_reads item).1, (zip_reads item).2]
    rfl
  have header := strcpy_fills length propertySetHeader
  have written := (writes_variables (sentVariables names values count) header).strcat propertySetEnd
  rw [cstr_eq_self (by decide), cstr_eq_self (by decide), Option.bind_assoc] at written
  rw [writePropertySet]
  simp only [foldlM_range reads inside]
  exact written

end Writes

/-! ### The room for it -/

section Room
variable {bits : Nat} {alloc : ByteMalloc} {names values : List (List UInt8)} {count : Int}

theorem room_iff (length : Nat) : length < sizeAdd bits (length % 2 ^ bits) 1 ↔ length + 1 < 2 ^ bits := by
  rw [sizeAdd_mod]
  constructor
  · intro room
    have below := Nat.mod_lt (length + 1) (Nat.two_pow_pos bits)
    have small := Nat.mod_le (length + 1) (2 ^ bits)
    by_contra wraps
    omega
  · intro fits
    rw [Nat.mod_eq_of_lt fits]
    exact Nat.lt_succ_self length

/-- If there is memory, what is stored stays in the buffer just if the size did not wrap around. -/
theorem generatePropertySet_written (named : Named names values count) {buffer : List UInt8}
    (memory : alloc.malloc (sizeAdd bits (propertySetLength (sentVariables names values count) % 2 ^ bits) 1) =
      some buffer) :
    (generatePropertySet bits alloc names values count).isSome = true ↔
      propertySetLength (sentVariables names values count) + 1 < 2 ^ bits := by
  have cleared := memset_whole (alloc.length _ _ memory)
  have fills := fun room => @writePropertySet_fills _ _ _ named room (List.replicate room 0) List.length_replicate
  rw [← room_iff, ← propertySetText_length, ← (fills _).isSome, propertySetText_length]
  simp only [generatePropertySet, propertySetSize_eq named, Option.bind_eq_bind, Option.bind_some, memory, cleared]
  cases writePropertySet names values count _ <;> rfl

def ByteMalloc.ample : ByteMalloc where
  malloc size := some (List.replicate size 0)
  length size buffer memory := by
    cases memory
    exact List.length_replicate

end Room

/-- `GeneratePropertySet` stays in its buffer, whether or not there is memory, just if the size of the text and its end
is a `size_t`. -/
theorem generatePropertySet_within (bits : Nat) (names values : List (List UInt8)) (count : Int)
    (named : Named names values count) :
    (∀ alloc, (generatePropertySet bits alloc names values count).isSome = true) ↔
      propertySetLength (sentVariables names values count) + 1 < 2 ^ bits := by
  constructor
  · intro within
    exact (@generatePropertySet_written bits .ample _ _ _ named _ rfl).mp (within .ample)
  · intro fits alloc
    cases memory : alloc.malloc
        (sizeAdd bits (propertySetLength (sentVariables names values count) % 2 ^ bits) 1) with
    | some buffer => exact (generatePropertySet_written named memory).mpr fits
    | none =>
        simp only [generatePropertySet, propertySetSize_eq named, Option.bind_eq_bind, Option.bind_some, memory]
        rfl

theorem generatePropertySet_within_one :
    (∀ alloc, (generatePropertySet 64 alloc [bytes "Status"] [bytes "1"] 1).isSome = true) ↔
      propertySetLength (sentVariables [bytes "Status"] [bytes "1"] 1) + 1 < 2 ^ 64 :=
  generatePropertySet_within 64 [bytes "Status"] [bytes "1"] 1 (by unfold Named; decide)

/-! ### Names that are too long together -/

def longNames (copies letters : Nat) : List (List UInt8) := List.replicate copies (List.replicate letters 97)

def noValues (copies : Nat) : List (List UInt8) := List.replicate copies []

theorem longNames_named (copies letters : Nat) : Named (longNames copies letters) (noValues copies) copies := by
  rw [Named, longNames, noValues, List.length_replicate, List.length_replicate]
  exact ⟨le_rfl, le_rfl⟩

theorem longNames_length (copies letters : Nat) :
    propertySetLength (sentVariables (longNames copies letters) (noValues copies) copies) =
      75 + copies * (33 + 2 * letters) := by
  have name : cstr (List.replicate letters 97) = List.replicate letters 97 := by
    apply cstr_eq_self
    intro member
    cases List.eq_of_mem_replicate member
  have sent : sentVariables (longNames copies letters) (noValues copies) copies =
      List.replicate copies (List.replicate letters 97, []) := by
    rw [sentVariables, longNames, noValues, List.zip_replicate, Int.toNat_natCast, List.take_replicate, Nat.min_self,
      Nat.min_self]
  rw [propertySetLength, sent, List.map_replicate, List.sum_replicate_nat, name, List.length_replicate]
  rfl

theorem longNames_overrun {bits copies letters : Nat} (long : ¬75 + copies * (33 + 2 * letters) + 1 < 2 ^ bits) :
    generatePropertySet bits .ample (longNames copies letters) (noValues copies) copies = none := by
  have written := @generatePropertySet_written bits .ample _ _ _ (longNames_named copies letters) _ rfl
  rw [← longNames_length, ← written] at long
  exact Option.not_isSome_iff_eq_none.mp long

/-- Of 2 ^ 15 names with 2 ^ 16 letters where a `size_t` has 32 bits, and of 2 ^ 30 names with 2 ^ 33 letters where it
has 64, a byte is stored behind the end. -/
theorem generatePropertySet_overruns :
    (Named (longNames (2 ^ 15) (2 ^ 16)) (noValues (2 ^ 15)) (2 ^ 15 : Nat) ∧
      generatePropertySet 32 .ample (longNames (2 ^ 15) (2 ^ 16)) (noValues (2 ^ 15)) (2 ^ 15 : Nat) = none) ∧
    (Named (longNames (2 ^ 30) (2 ^ 33)) (noValues (2 ^ 30)) (2 ^ 30 : Nat) ∧
      generatePropertySet 64 .ample (longNames (2 ^ 30) (2 ^ 33)) (noValues (2 ^ 30)) (2 ^ 30 : Nat) = none) :=
  ⟨⟨longNames_named _ _, longNames_overrun (by decide)⟩, ⟨longNames_named _ _, longNames_overrun (by decide)⟩⟩

end Pupnp.Gena
