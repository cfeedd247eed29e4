import RcaBackend.PayloadImage
import RcaBackend.RawReadability

/-!
# The messages that are shown

What is stored of a log line is its level and its message, and the file with the line is
deleted. A line that is no object, or an object without a message, is its own message.
Otherwise the message is written as a scalar: a list or an object leaves nothing, and a
float is cut to six digits.
-/

namespace RcaBackend

open Attempts

/-- A float literal of at most six digits, or a special value. -/
def Short : FloatLit → Prop
  | .decimal _ mantissa _ => mantissa < 10 ^ 6
  | .infinity _ | .nan => True

instance : DecidablePred Short
  | .decimal _ mantissa _ => inferInstanceAs (Decidable (mantissa < 10 ^ 6))
  | .infinity _ | .nan => inferInstanceAs (Decidable True)

/-- `f"{x:g}"` writes six digits, and a number of six digits as it is. -/
class SixDigits (F : Type) [PyRuntime] [PyFloat F] : Prop where
  general_short : ∀ x : F, ∃ lit, floatOfText (PyFloat.general x) = some lit ∧ Short lit
  general_exact : ∀ lit, Short lit → ∃ read,
    floatOfText (PyFloat.general (PyFloat.ofLit lit : F)) = some read ∧
      (PyFloat.ofLit read : F) = PyFloat.ofLit lit

section Messages

variable [PyRuntime]

/-- The message of a line: the first present value of an object's message keys. -/
def messageOf (raw : PyStr) : Option Json :=
  (objectOf raw).bind fun d =>
    if firstValue d logMsgKeys = .null then none else some (firstValue d logMsgKeys)

variable (F : Type) [PyFloat F]

/-- A text has all of a value: the text of a string, the name of a boolean, the digits of an
integer, and of a float a number that is read as it. Of a list or an object it has something. -/
def FullText : Json → PyStr → Prop
  | .str message, text => text = message
  | .bool value, text => text = if value then py "true" else py "false"
  | .int value, text => text = intText value
  | .float lit, text => ∃ read, floatOfText text = some read ∧
      (PyFloat.ofLit read : F) = PyFloat.ofLit lit
  | .list _, text | .dict _, text => text ≠ []
  | .null, text => text = []

/-- A stored message has all of the line or of its message, and is empty only for an empty
message. -/
structure KeepsMessage (raw msg : PyStr) : Prop where
  whole : messageOf raw = none → msg = raw
  full : ∀ value, messageOf raw = some value → FullText F value msg
  empty : msg = [] → messageOf raw = some (.str [])

/-- A scalar, and a float only of six digits. -/
def Showable : Json → Prop
  | .list _ | .dict _ => False
  | .float lit => ∃ short, Short short ∧ (PyFloat.ofLit short : F) = PyFloat.ofLit lit
  | .null | .bool _ | .int _ | .str _ => True

variable {F}

theorem floatOfText_nil : floatOfText ([] : PyStr) = none := by
  have empty : ∀ c ∈ ([] : PyStr), Plain c := nofun
  exact (floatOfText_plain empty).trans rfl

/-- The message that is stored for a line. -/
theorem logLine_msg {raw : PyStr} {line : LogLine} (read : logLine F raw = .ok line) :
    line.msg = ((messageOf raw).map (scalarText F)).getD raw := by
  obtain ⟨object, found, same⟩ := bind_ok_iff.mp read
  obtain rfl := Except.ok.inj (found.symm.trans (loadsDict_eq (loads_of_loadsDict found)))
  rw [messageOf]
  cases object : objectOf raw with
  | none =>
    rw [object] at same
    obtain rfl := Except.ok.inj same
    rfl
  | some d =>
    rw [object] at same
    obtain rfl := Except.ok.inj same
    by_cases absent : firstValue d logMsgKeys = .null
    · simp [logMsg, absent]
    · simp [logMsg, absent]

theorem messageOf_present {raw : PyStr} {value : Json} (found : messageOf raw = some value) :
    value ≠ .null := by
  obtain ⟨d, -, chosen⟩ := Option.bind_eq_some_iff.mp found
  split at chosen
  · simp at chosen
  · next present => exact Option.some.inj chosen ▸ present

variable [laws : SixDigits F]

theorem float_full_iff (lit : FloatLit) :
    FullText F (.float lit) (scalarText F (.float lit)) ↔ Showable F (.float lit) := by
  constructor
  · rintro ⟨read, found, same⟩
    obtain ⟨short, written, few⟩ := laws.general_short (PyFloat.ofLit lit)
    obtain rfl := Option.some.inj (written.symm.trans found)
    exact ⟨short, few, same⟩
  · rintro ⟨short, few, same⟩
    obtain ⟨read, found, kept⟩ := laws.general_exact short few
    rw [same] at found kept
    exact ⟨read, found, kept⟩

/-- What is written of a value is all of it if it can be shown. -/
theorem full_iff {value : Json} (present : value ≠ .null) :
    FullText F value (scalarText F value) ↔ Showable F value := by
  cases value with
  | null => exact absurd rfl present
  | float lit => exact float_full_iff lit
  | bool _ | int _ | str _ | list _ | dict _ => simp [FullText, scalarText, Showable]

/-- Of a value that can be shown something is written, unless it is the empty string. -/
theorem scalarText_empty {value : Json} (present : value ≠ .null) (showable : Showable F value)
    (empty : scalarText F value = []) : value = .str [] := by
  cases value with
  | null => exact absurd rfl present
  | str text => exact congrArg Json.str empty
  | bool value => cases value <;> simp [scalarText, py] at empty
  | int value =>
    obtain ⟨first, others, digits, -⟩ := intText_cons value
    exact absurd (digits.symm.trans empty) (List.cons_ne_nil _ _)
  | float lit =>
    obtain ⟨short, written, -⟩ := laws.general_short (PyFloat.ofLit lit)
    have nothing : PyFloat.general (PyFloat.ofLit lit : F) = [] := empty
    rw [nothing, floatOfText_nil] at written
    simp at written
  | list _ | dict _ => exact showable.elim

/-- The message of a line is kept if and only if it can be shown. -/
theorem message_kept_iff [PyLaws F] {raw text : PyStr} (nonempty : raw ≠ [])
    (returned : normalizeLog F raw = .ok text) :
    ∃ msg, Shows text (py "msg") (.str msg) ∧
      (KeepsMessage F raw msg ↔ ∀ value ∈ messageOf raw, Showable F value) := by
  obtain ⟨line, read, loaded⟩ := normalizeLog_loads F returned
  refine ⟨line.msg, ⟨_, loaded, rfl⟩, ?_⟩
  rw [logLine_msg read]
  constructor
  · intro kept value found
    have full := kept.full value found
    rw [found] at full
    exact (full_iff (messageOf_present found)).mp full
  · intro showable
    cases message : messageOf raw with
    | none =>
      constructor
      · exact fun _ => rfl
      · simp [message]
      · exact fun empty => absurd empty nonempty
    | some value =>
      have present := messageOf_present message
      have can := showable value message
      constructor
      · simp [message]
      · intro other found
        obtain rfl := Option.some.inj (message.symm.trans found)
        exact (full_iff present).mpr can
      · intro empty
        rw [message, scalarText_empty present can empty]

end Messages

namespace ReferenceInterpreter

/-- The leading six digits of a number. -/
def sixDigits : FloatLit → FloatLit
  | .decimal negative mantissa exponent =>
    let cut := (natText mantissa).length - 6
    .decimal negative (mantissa / 10 ^ cut) (exponent + cut)
  | .infinity negative => .infinity negative
  | .nan => .nan

/-- Exact decimals that are written with six digits. -/
@[reducible] def cutDecimals : PyFloat FloatLit :=
  { rangedDecimals with general := fun x => general (sixDigits x) }

theorem sixDigits_short (x : FloatLit) : Short (sixDigits x) := by
  cases x with
  | nan | infinity negative => trivial
  | decimal negative mantissa exponent =>
    have positive : 0 < (natText mantissa).length := List.length_pos_iff.mpr (natText_ne_nil mantissa)
    have bound := (natText_length_le_iff positive).mp (Nat.le_refl _)
    apply Nat.div_lt_of_lt_mul
    rw [← Nat.pow_add]
    exact bound.trans_le (Nat.pow_le_pow_right (by decide) (by omega))

theorem sixDigits_id {x : FloatLit} (short : Short x) : sixDigits x = x := by
  cases x with
  | nan | infinity negative => rfl
  | decimal negative mantissa exponent =>
    have few := (@natText_length_le_iff _ 6 (by decide)).mpr short
    simp [sixDigits, Nat.sub_eq_zero_of_le few]

theorem cut_digits : @SixDigits FloatLit asciiRuntime cutDecimals := by
  refine @SixDigits.mk FloatLit asciiRuntime cutDecimals ?_ ?_
  · exact fun x => ⟨sixDigits x, general_read _, sixDigits_short x⟩
  · intro lit short
    refine ⟨lit, ?_, rfl⟩
    change @floatOfText asciiRuntime (general (sixDigits lit)) = some lit
    rw [sixDigits_id short, general_read]

theorem cut_laws : @PyLaws FloatLit asciiRuntime cutDecimals := by
  obtain ⟨a, b, c, d, -, -, e⟩ := reference_laws
  refine @PyLaws.mk FloatLit asciiRuntime cutDecimals a b c d ?_ ?_ e
  · intro x
    refine ⟨sixDigits x, general_read _, ?_⟩
    change general (sixDigits (sixDigits x)) = general (sixDigits x)
    rw [sixDigits_id (sixDigits_short x)]
  · exact fun x => plain_encodable (general_plain _)

end ReferenceInterpreter

/-- A line whose message is an object. -/
def structuredLine : PyStr :=
  py "\x7b\"level\":\"error\",\"message\":\x7b\"code\":7,\"text\":\"db down\"\x7d\x7d"

open ReferenceInterpreter in
/-- The message is not stored. -/
theorem structured_dropped :
    ∃ text, @normalizeLog FloatLit cutDecimals asciiRuntime structuredLine = .ok text ∧
      ∀ msg, @Shows asciiRuntime text (py "msg") (.str msg) →
        ¬ @KeepsMessage asciiRuntime FloatLit cutDecimals structuredLine msg := by
  have message : @messageOf asciiRuntime structuredLine =
      some (.dict [(py "code", .int 7), (py "text", .str (py "db down"))]) := by decide +kernel
  have sent : @normalizeLog FloatLit cutDecimals asciiRuntime structuredLine >>= @loads asciiRuntime =
      .ok (.dict [(py "level", .str (py "error")), (py "msg", .str [])]) := by decide +kernel
  obtain ⟨text, returned, loaded⟩ := bind_ok_iff.mp sent
  refine ⟨text, returned, ?_⟩
  intro msg shown kept
  have empty : @Shows asciiRuntime text (py "msg") (.str []) := ⟨_, loaded, by decide⟩
  have stored := @shows_unique asciiRuntime _ _ _ _ empty shown
  obtain rfl := Json.str.inj stored
  exact @KeepsMessage.full asciiRuntime FloatLit cutDecimals _ _ kept _ message rfl

open ReferenceInterpreter in
theorem message_kept_iff_plain :
    ∃ text, @normalizeLog FloatLit cutDecimals asciiRuntime (py "db down") = .ok text ∧
      ∃ msg, @Shows asciiRuntime text (py "msg") (.str msg) ∧
        @KeepsMessage asciiRuntime FloatLit cutDecimals (py "db down") msg := by
  have returns : Returns (@normalizeLog FloatLit cutDecimals asciiRuntime (py "db down")) := by
    decide +kernel
  obtain ⟨text, returned⟩ := returns
  obtain ⟨msg, shown, kept⟩ := @message_kept_iff asciiRuntime FloatLit cutDecimals cut_digits
    cut_laws (py "db down") text (by decide) returned
  have plain : @messageOf asciiRuntime (py "db down") = none := by decide +kernel
  refine ⟨text, returned, msg, shown, kept.mpr ?_⟩
  rw [plain]
  exact nofun

end RcaBackend
