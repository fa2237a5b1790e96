import CacheHitRate.FlagStore

/-!
Loading the switch from a file. A load gives false for a missing or blocked file, for bytes that
are not UTF-8, for text that is no JSON document and for a document that is no object with the
member `enabled` set to `true`; it gives true for such an object. It fails in one way only: when
the reader runs out of stack on the decoded text. That does happen, and for a plain reason: a
text that opens more arrays than the reader's budget overflows it before anything else is
looked at, so a file of a thousand opening brackets makes the load fail.
-/

namespace CacheHitRate

namespace Json

def openBracket : Nat := 91

theorem foldl_scanStep_openBrackets (k : Nat) (out : List Token) :
    (List.replicate k openBracket).foldl scanStep (.inl (.between, out)) =
      .inl (.between, List.replicate k .openArr ++ out) := by
  induction k generalizing out with
  | zero => rfl
  | succ k ih =>
    rw [List.replicate_succ, List.foldl_cons]
    have hstep : scanStep (.inl (.between, out)) openBracket = .inl (.between, .openArr :: out) :=
      rfl
    rw [hstep, ih, List.replicate_succ', List.append_assoc, List.singleton_append]

theorem scan_openBrackets (k : Nat) :
    scan (List.replicate k openBracket) = (List.replicate k .openArr, .complete) := by
  simp [scan, foldl_scanStep_openBrackets, pending, LexState.inString]

theorem foldlM_parseStep_openArr (limit k : Nat) :
    ∀ (stack : List Frame) (close : Bool), stack.length ≤ limit → limit < stack.length + k →
      (List.replicate k Token.openArr).foldlM (parseStep limit) (stack, .value close) =
        .error (.nesting false) := by
  induction k with
  | zero => intro stack _ hle hlt; omega
  | succ k ih =>
    intro stack close hle hlt
    rw [List.replicate_succ, List.foldlM_cons]
    by_cases hroom : stack.length < limit
    · have hstep : parseStep limit (stack, .value close) .openArr =
          .ok (.arr [] :: stack, .value true) := by
        simp [parseStep, openFrame, hroom]
      rw [hstep]
      exact ih (.arr [] :: stack) true (by simp; omega) (by simp; omega)
    · have hstep : parseStep limit (stack, .value close) .openArr = .error (.nesting false) := by
        simp [parseStep, openFrame, hroom]
      rw [hstep]
      rfl

theorem read_openBrackets {limit k : Nat} (h : limit < k) :
    read limit ⟨List.replicate k openBracket⟩ = .error (.overflow (.nesting false)) := by
  have hparse := foldlM_parseStep_openArr limit k [] false (Nat.zero_le _) (by simpa using h)
  simp [read, readPoints, parsePoints, scan_openBrackets, hparse, Fault.toError]

end Json

namespace FlagStore

theorem normalizeLineEnds_of_not_mem (cs : List Nat) (h : 13 ∉ cs) :
    normalizeLineEnds cs = cs := by
  fun_induction normalizeLineEnds cs <;> simp_all

theorem decode_openBrackets (k : Nat) :
    decode ⟨List.replicate k Json.openBracket⟩ = .ok ⟨List.replicate k Json.openBracket⟩ := by
  have hnone : (List.replicate k Json.openBracket).findIdx? isSurrogate = none := by
    simp [isSurrogate, Json.openBracket]
  have hends := normalizeLineEnds_of_not_mem (List.replicate k Json.openBracket)
    (by simp [Json.openBracket])
  simp [decode, hnone, hends]

theorem load_openBrackets {limit k : Nat} (h : limit < k) :
    (file (some ⟨List.replicate k Json.openBracket⟩) false).load limit =
      .error (.nesting false) := by
  simp only [load, enabledIn, decode_openBrackets, Json.read_openBrackets h]
  rfl

/-- A load fails on nine hundred and ninety opening brackets. -/
theorem load_fails_on_deep_array :
    (file (some ⟨List.replicate 990 Json.openBracket⟩) false).load loadDepth =
      .error (.nesting false) :=
  load_openBrackets (by decide)

/-- What the member `enabled` of a file's document decides, before the reader's outcome is
known: the value read from a text that decodes. -/
theorem enabledIn_ok_or_overflow (limit : Nat) (t : Text) :
    (∃ b, enabledIn limit t = .ok b ∧
      (b = true ↔ ∃ d fields, decode t = .ok d ∧ Json.read limit d = .ok (.obj fields) ∧
        fields.lookup (Text.ofString "enabled") = some (.bool true))) ∨
    (∃ d e, decode t = .ok d ∧ Json.read limit d = .error (.overflow e) ∧
      enabledIn limit t = .error e) := by
  cases hdec : decode t with
  | error f =>
    exact .inl ⟨false, by simp [enabledIn, hdec], by simp⟩
  | ok d =>
    cases hread : Json.read limit d with
    | error r =>
      cases r with
      | invalid => exact .inl ⟨false, by simp [enabledIn, hdec, hread], by simp [hread]⟩
      | overflow e => exact .inr ⟨d, e, rfl, hread, by simp [enabledIn, hdec, hread]⟩
    | ok v =>
      left
      cases v with
      | obj fields =>
        by_cases hon : fields.lookup (Text.ofString "enabled") = some (.bool true)
        · exact ⟨true, by simp [enabledIn, hdec, hread, hon], by simpa [hread] using hon⟩
        · refine ⟨false, ?_, by simpa [hread] using hon⟩
          simp [enabledIn, hdec, hread]
      | _ => exact ⟨false, by simp [enabledIn, hdec, hread], by simp [hread]⟩

/-- Loading from a file, missing, blocked or holding any text, either gives a switch value or
fails on an overflow of the reader on the file's decoded text. The value is true exactly when
the file exists, is not blocked, decodes, and holds an object whose `enabled` member (the last,
when it is repeated) is `true`. -/
theorem load_file_true_iff_enabled_or_overflow (limit : Nat) (text : Option Text)
    (blocked : Bool) :
    (∃ b, (file text blocked).load limit = .ok (.bool b) ∧
      (b = true ↔ ∃ t d fields, text = some t ∧ blocked = false ∧ decode t = .ok d ∧
        Json.read limit d = .ok (.obj fields) ∧
        fields.lookup (Text.ofString "enabled") = some (.bool true))) ∨
    (∃ t d e, text = some t ∧ blocked = false ∧ decode t = .ok d ∧
      Json.read limit d = .error (.overflow e) ∧ (file text blocked).load limit = .error e) := by
  cases text with
  | none => exact .inl ⟨false, rfl, by simp⟩
  | some t =>
    cases blocked with
    | true => exact .inl ⟨false, rfl, by simp⟩
    | false =>
      rcases enabledIn_ok_or_overflow limit t with ⟨b, hb, hiff⟩ | ⟨d, e, hdec, hread, he⟩
      · exact .inl ⟨b, by simp only [load, hb]; rfl, by simpa using hiff⟩
      · exact .inr ⟨t, d, e, rfl, rfl, hdec, hread, by simp only [load, he]; rfl⟩

end FlagStore

end CacheHitRate
