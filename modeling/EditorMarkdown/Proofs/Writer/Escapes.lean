import EditorMarkdown.Proofs.Writer.References

/-!
Escapes as readers see them. A backslash before punctuation stands for the punctuation and keeps it
from ending what is read; before anything else it stands for itself. Where the writer protects no
more than references, just the backslashes are lost that stand before punctuation.
-/

namespace EditorMarkdown.Writer

open Text (isAsciiPunctuation readReference)

variable {text written rest : List Char} {c : Char}

/-! Reading. -/

/-- `resolve` past the next `wait` characters. -/
def resolveFrom : Nat → List Char → List Char
  | _, [] => []
  | wait + 1, _ :: rest => resolveFrom wait rest
  | 0, c :: rest =>
      if c = '\\' && rest.head?.any isAsciiPunctuation then rest.take 1 ++ resolveFrom 1 rest
      else
        match if c = '&' then readReference rest else none with
        | some (characters, length) => characters ++ resolveFrom length rest
        | none => c :: resolveFrom 0 rest

/-- The text that escapes and references stand for. -/
def resolve (text : List Char) : List Char := resolveFrom 0 text

/-- What was read of a text, how many parentheses were left open in it, and the rest. -/
structure Scanned where
  raw : List Char
  depth : Nat
  rest : List Char
  deriving DecidableEq, Repr

def Scanned.behind (lead : List Char) (scanned : Scanned) : Scanned :=
  { scanned with raw := lead ++ scanned.raw }

/-- Reads a text up to the first character at which `step` ends. Characters behind a backslash are
passed over. -/
def scan (step : Nat → Char → Option Nat) : Nat → List Char → Scanned
  | depth, [] => ⟨[], depth, []⟩
  | depth, '\\' :: c :: rest =>
      if isAsciiPunctuation c then (scan step depth rest).behind ['\\', c]
      else (scan step depth (c :: rest)).behind ['\\']
  | depth, c :: rest =>
      match step depth c with
      | some next => (scan step next rest).behind [c]
      | none => ⟨[], depth, c :: rest⟩

/-! Resolving. -/

theorem resolve_escaped (punctuation : isAsciiPunctuation c) (rest : List Char) :
    resolve ('\\' :: c :: rest) = c :: resolve rest := by
  simp [resolve, resolveFrom, punctuation]

theorem resolve_backslash (kept : rest.head?.any isAsciiPunctuation = false) :
    resolve ('\\' :: rest) = '\\' :: resolve rest := by
  simp [resolve, resolveFrom, kept]

theorem resolve_bare (apart : c ≠ '\\') (alone : c = '&' → readReference rest = none) :
    resolve (c :: rest) = c :: resolve rest := by
  by_cases ampersand : c = '&'
  · simp [resolve, resolveFrom, ampersand, alone ampersand]
  · simp [resolve, resolveFrom, apart, ampersand]

theorem resolveFrom_append (lead rest : List Char) :
    resolveFrom lead.length (lead ++ rest) = resolve rest := by
  induction lead with
  | nil => rfl
  | cons c lead induction => exact induction

theorem resolve_reference {body tail characters : List Char} {length : Nat}
    (refers : Refers body tail text) (found : readReference text = some (characters, length))
    (measured : length = body.length + 1) :
    resolve ('&' :: text) = characters ++ resolve tail := by
  have skipped := resolveFrom_append (body ++ [';']) tail
  rw [List.length_append, List.append_assoc, List.singleton_append, ← refers.whole] at skipped
  simp only [resolve, resolveFrom, found, measured] at skipped ⊢
  simpa using skipped

theorem mem_resolveFrom (outside : isReferenceChar c = false) (apart : c ∉ ['\\', '&', ';'])
    {wait : Nat} (member : c ∈ text.drop wait) : c ∈ resolveFrom wait text := by
  simp only [List.mem_cons, List.not_mem_nil, or_false, not_or] at apart
  induction text generalizing wait with
  | nil => simp at member
  | cons d text induction =>
      cases wait with
      | succ wait => exact induction member
      | zero =>
          rw [List.drop_zero, List.mem_cons] at member
          rw [resolveFrom]
          split
          · next escapes =>
              simp only [Bool.and_eq_true, decide_eq_true_eq] at escapes
              have behind : c ∈ text :=
                member.resolve_left fun same => apart.1 (same.trans escapes.1)
              rw [← List.take_append_drop 1 text, List.mem_append] at behind
              exact List.mem_append.2 (behind.imp_right induction)
          · split
            · next characters length found =>
                obtain ⟨rfl, found⟩ := ite_eq_iff.1 found |>.resolve_right (by simp)
                obtain ⟨body, tail, refers, rfl, -⟩ := readReference_eq_some found
                have behind : c ∈ text := member.resolve_left apart.2.1
                have inTail : c ∈ text.drop (body.length + 1) := by
                  rw [refers.whole, List.mem_append, List.mem_cons] at behind
                  rcases behind with inBody | semicolon | inTail
                  · rw [refers.all c inBody] at outside
                    cases outside
                  · exact absurd semicolon apart.2.2
                  · simpa [refers.whole] using inTail
                exact List.mem_append_right _ (induction inTail)
            · rw [List.mem_cons]
              exact member.imp_right fun behind => induction behind

/-! Scanning. -/

section

variable {step : Nat → Char → Option Nat} {depth : Nat}

@[simp] theorem Scanned.behind_behind (lead more : List Char) (scanned : Scanned) :
    (scanned.behind more).behind lead = scanned.behind (lead ++ more) := by
  simp [Scanned.behind]

theorem scan_escaped (punctuation : isAsciiPunctuation c) (rest : List Char) :
    scan step depth ('\\' :: c :: rest) = (scan step depth rest).behind ['\\', c] := by
  rw [scan, if_pos punctuation]

theorem scan_backslash (kept : isAsciiPunctuation c = false) (rest : List Char) :
    scan step depth ('\\' :: c :: rest) = (scan step depth (c :: rest)).behind ['\\'] := by
  rw [scan, if_neg (by simp [kept])]

theorem scan_bare (apart : c ≠ '\\') {next : Nat} (goes : step depth c = some next)
    (rest : List Char) : scan step depth (c :: rest) = (scan step next rest).behind [c] := by
  rw [scan]
  · rw [goes]
  · rintro d rest rfl
    exact absurd rfl apart

theorem scan_stop (apart : c ≠ '\\') (ends : step depth c = none) (rest : List Char) :
    scan step depth (c :: rest) = ⟨[], depth, c :: rest⟩ := by
  rw [scan]
  · rw [ends]
  · rintro d rest rfl
    exact absurd rfl apart

/-- A scan of a text stops at the character `c` behind it, or a backslash at its end escapes that
and the scan goes on. -/
def Meets (step : Nat → Char → Option Nat) (depth : Nat) (c : Char) (rest text : List Char) :
    Prop :=
  scan step depth (text ++ c :: rest) = ⟨text, depth, c :: rest⟩ ∨
    isAsciiPunctuation c ∧
      scan step depth (text ++ c :: rest) = (scan step depth rest).behind (text ++ [c])

theorem Meets.behind (lead : List Char) (meets : Meets step depth c rest text)
    (scanned : scan step depth (lead ++ text ++ c :: rest) =
      (scan step depth (text ++ c :: rest)).behind lead) :
    Meets step depth c rest (lead ++ text) := by
  rcases meets with stopped | ⟨punctuation, passed⟩
  · exact .inl (by rw [scanned, stopped, Scanned.behind])
  · exact .inr ⟨punctuation, by rw [scanned, passed, Scanned.behind_behind, List.append_assoc]⟩

theorem meets (apart : c ≠ '\\') (ends : step depth c = none) (rest : List Char) :
    ∀ {text : List Char}, (∀ d ∈ text, d ≠ '\\' → step depth d = some depth) →
      Meets step depth c rest text
  | [], _ => .inl (scan_stop apart ends rest)
  | [d], goes => by
      by_cases backslash : d = '\\'
      · subst backslash
        cases punctuation : isAsciiPunctuation c with
        | true => exact .inr ⟨punctuation, scan_escaped punctuation rest⟩
        | false =>
            have empty : Meets step depth c rest [] := .inl (scan_stop apart ends rest)
            exact empty.behind ['\\'] (scan_backslash punctuation rest)
      · have empty : Meets step depth c rest [] := .inl (scan_stop apart ends rest)
        have goesOn := goes d List.mem_cons_self backslash
        exact empty.behind [d] (scan_bare backslash goesOn _)
  | d :: e :: text, goes => by
      have goesLater := fun a member => goes a (List.mem_cons_of_mem d member)
      by_cases backslash : d = '\\'
      · subst backslash
        cases punctuation : isAsciiPunctuation e with
        | true =>
            have goesLast := fun a member => goesLater a (List.mem_cons_of_mem e member)
            exact (meets apart ends rest goesLast).behind ['\\', e]
              (scan_escaped punctuation _)
        | false =>
            exact (meets apart ends rest goesLater).behind ['\\']
              (scan_backslash punctuation _)
      · have goesOn := goes d List.mem_cons_self backslash
        exact (meets apart ends rest goesLater).behind [d] (scan_bare backslash goesOn _)

end

/-! Escaping. -/

/-- A written text is read as a text if `next` stands behind it. Characters that stand for
themselves are such as a scan passes, and a backslash stands for itself where it escapes nothing. -/
inductive Escapes (passes : Char → Prop) (next : Char) : List Char → List Char → Prop
  | nil : Escapes passes next [] []
  | bare {c : Char} {text written : List Char} (apart : c ≠ '\\') (passed : passes c)
      (alone : c = '&' → readReference written = none) (others : Escapes passes next text written) :
      Escapes passes next (c :: text) (c :: written)
  | backslash {text written : List Char} (kept : isAsciiPunctuation (written.headD next) = false)
      (others : Escapes passes next text written) :
      Escapes passes next ('\\' :: text) ('\\' :: written)
  | escaped {c : Char} {text written : List Char} (punctuation : isAsciiPunctuation c)
      (others : Escapes passes next text written) :
      Escapes passes next (c :: text) ('\\' :: c :: written)

namespace Escapes

variable {passes : Char → Prop} {next : Char}

theorem resolve_eq (escapes : Escapes passes next text written) : resolve written = text := by
  induction escapes with
  | nil => rfl
  | bare apart passed alone others induction => rw [resolve_bare apart alone, induction]
  | @backslash text written kept others induction =>
      have stays : written.head?.any isAsciiPunctuation = false := by
        cases written with
        | nil => rfl
        | cons c written => exact kept
      rw [resolve_backslash stays, induction]
  | escaped punctuation others induction => rw [resolve_escaped punctuation, induction]

theorem scan_eq {step : Nat → Char → Option Nat} {depth : Nat}
    (goes : ∀ c, passes c → step depth c = some depth) (escapes : Escapes passes next text written)
    (rest : List Char) :
    scan step depth (written ++ next :: rest) =
      (scan step depth (next :: rest)).behind written := by
  induction escapes with
  | nil => rfl
  | bare apart passed alone others induction =>
      rw [List.cons_append, scan_bare apart (goes _ passed), induction, Scanned.behind_behind]
      rfl
  | @backslash text written kept others induction =>
      have first : scan step depth ('\\' :: (written ++ next :: rest)) =
          (scan step depth (written ++ next :: rest)).behind ['\\'] := by
        cases written with
        | nil => exact scan_backslash kept rest
        | cons c written => exact scan_backslash kept _
      rw [List.cons_append, first, induction, Scanned.behind_behind]
      rfl
  | escaped punctuation others induction =>
      rw [List.cons_append, List.cons_append, scan_escaped punctuation, induction,
        Scanned.behind_behind]
      rfl

/-- A character whose reference is protected stands for itself. -/
theorem cons_escapeReferences (apart : c ≠ '\\') (passed : passes c)
    (others : Escapes passes next text (escapeReferences written)) :
    Escapes passes next (c :: text) (escapeReferences (c :: written)) := by
  by_cases reference : c = '&' ∧ startsReference written
  · obtain ⟨rfl, starts⟩ := reference
    rw [escapeReferences_starts starts]
    exact .escaped (by decide) others
  · have alone : c = '&' → startsReference written = false := by simpa using reference
    rw [escapeReferences_cons alone]
    refine .bare apart passed (fun ampersand => ?_) others
    rw [readReference_escapeReferences, readReference_eq_none (alone ampersand)]

end Escapes

/-! Lost backslashes. -/

/-- Whether a backslash before a text would be lost. A backslash before a reference that is none
stays, because another one is written between them. -/
def isEscapable : List Char → Bool
  | [] => false
  | c :: rest =>
      isAsciiPunctuation c && !(c = '&' && startsReference rest && (readReference rest).isNone)

def losesBackslash : List Char → Bool
  | [] => false
  | c :: rest => (c = '\\' && isEscapable rest) || losesBackslash rest

theorem losesBackslash_cons_of_ne (apart : c ≠ '\\') (rest : List Char) :
    losesBackslash (c :: rest) = losesBackslash rest := by
  simp [losesBackslash, apart]

section

/-! Behind a destination stands a character that takes no part in references. -/

variable (outside : isReferenceChar c = false) (apart : c ∉ ['&', ';'])

include outside apart

theorem readReference_concat (text : List Char) :
    readReference (text ++ [c]) = readReference text := by
  simp only [List.mem_cons, List.not_mem_nil, or_false, not_or] at apart
  have same := startsReference_append_cons outside apart.2 text []
  cases starts : startsReference text with
  | true =>
      obtain ⟨body, tail, refers⟩ := startsReference_iff.1 starts
      rw [refers.whole, List.append_assoc, List.cons_append, readReference_append]
  | false => rw [readReference_eq_none starts, readReference_eq_none (same.trans starts)]

theorem losesBackslash_concat (text : List Char) :
    losesBackslash (text ++ [c]) =
      (losesBackslash text || (text.getLast? = some '\\' && isAsciiPunctuation c)) := by
  have single := apart
  simp only [List.mem_cons, List.not_mem_nil, or_false, not_or] at single
  induction text with
  | nil => simp [losesBackslash, isEscapable]
  | cons d text induction =>
      rw [List.cons_append, losesBackslash, losesBackslash, induction]
      cases text with
      | nil => simp [losesBackslash, isEscapable, single.1]
      | cons e text =>
          have same : isEscapable (e :: text ++ [c]) = isEscapable (e :: text) := by
            rw [List.cons_append, isEscapable, isEscapable, readReference_concat outside apart,
              startsReference_append_cons outside single.2]
          rw [same, List.getLast?_cons_cons, Bool.or_assoc]

end

theorem escapes_escapeReferences {passes : Char → Prop} {next : Char} :
    ∀ {text : List Char}, losesBackslash text = false →
      (text.getLast? = some '\\' → isAsciiPunctuation next = false) →
      (∀ c ∈ text, c ≠ '\\' → passes c) → Escapes passes next text (escapeReferences text)
  | [], _, _, _ => .nil
  | [c], kept, last, passed => by
      by_cases backslash : c = '\\'
      · subst backslash
        exact .backslash (last rfl) .nil
      · exact Escapes.nil.cons_escapeReferences backslash (passed c List.mem_cons_self backslash)
  | c :: d :: text, kept, last, passed => by
      rw [losesBackslash, Bool.or_eq_false_iff] at kept
      rw [List.getLast?_cons_cons] at last
      have passedLater := fun e member => passed e (List.mem_cons_of_mem c member)
      have later := escapes_escapeReferences kept.2 last passedLater
      by_cases backslash : c = '\\'
      · subst backslash
        have stays : isEscapable (d :: text) = false := by simpa using kept.1
        rw [escapeReferences_cons (by simp)]
        cases punctuation : isAsciiPunctuation d with
        | false =>
            have ampersand : d ≠ '&' := by
              rintro rfl
              cases punctuation
            refine .backslash ?_ later
            rw [escapeReferences_cons (fun same => absurd same ampersand)]
            exact punctuation
        | true =>
            simp only [isEscapable, punctuation, Bool.true_and, Bool.not_eq_false',
              Bool.and_eq_true, decide_eq_true_eq, Option.isNone_iff_eq_none] at stays
            obtain ⟨⟨rfl, starts⟩, unread⟩ := stays
            rw [escapeReferences_starts starts] at later ⊢
            have unreadWritten : readReference (escapeReferences text) = none := by
              rw [readReference_escapeReferences, unread]
            cases later with
            | escaped _ others =>
                refine .escaped (by decide) (.bare (by decide) ?_ (fun _ => unreadWritten) others)
                exact passed '&' (by simp) (by decide)
      · exact later.cons_escapeReferences backslash (passed c List.mem_cons_self backslash)

theorem resolve_escapeReferences_cons (apart : c ≠ '\\') (text : List Char) :
    resolve (escapeReferences (c :: text)) = c :: resolve (escapeReferences text) := by
  by_cases reference : c = '&' ∧ startsReference text
  · obtain ⟨rfl, starts⟩ := reference
    rw [escapeReferences_starts starts, resolve_escaped (by decide)]
  · have alone : c = '&' → startsReference text = false := by simpa using reference
    rw [escapeReferences_cons alone, resolve_bare apart]
    intro ampersand
    rw [readReference_escapeReferences, readReference_eq_none (alone ampersand)]

theorem resolve_escapeReferences_kept (kept : isAsciiPunctuation c = false) (text : List Char) :
    resolve (escapeReferences ('\\' :: c :: text)) =
      '\\' :: resolve (escapeReferences (c :: text)) := by
  have ampersand : c ≠ '&' := by
    rintro rfl
    cases kept
  rw [escapeReferences_cons (by simp), resolve_backslash]
  rw [escapeReferences_cons fun same => absurd same ampersand]
  exact kept

theorem resolve_escapeReferences_lost (punctuation : isAsciiPunctuation c)
    (alone : c = '&' → startsReference text = false) :
    resolve (escapeReferences ('\\' :: c :: text)) = c :: resolve (escapeReferences text) := by
  rw [escapeReferences_cons (by simp), escapeReferences_cons alone, resolve_escaped punctuation]

/-- Behind a backslash a reference is read as one. It stands for fewer characters than it is written
with. -/
theorem length_resolve_reference {characters : List Char} {length : Nat}
    (found : readReference text = some (characters, length)) :
    ∃ tail, tail.length < text.length ∧
      (resolve (escapeReferences ('\\' :: '&' :: text))).length + tail.length ≤
        text.length + 1 + (resolve (escapeReferences tail)).length := by
  obtain ⟨body, tail, refers, measured, short⟩ := readReference_eq_some found
  have starts := startsReference_iff.2 ⟨body, tail, refers⟩
  have written : Refers body (escapeReferences tail) (escapeReferences text) :=
    ⟨refers.filled, refers.all, refers.escapeReferences_eq⟩
  have filled := List.length_pos_iff.2 refers.filled
  have whole : text.length = body.length + 1 + tail.length := by
    simp [refers.whole]
    omega
  rw [← readReference_escapeReferences] at found
  refine ⟨tail, by omega, ?_⟩
  rw [escapeReferences_cons (by simp), escapeReferences_starts starts,
    resolve_escaped (by decide), resolve_reference written found measured, List.length_cons,
    List.length_append]
  omega

theorem resolve_escapeReferences_unread (starts : startsReference text)
    (unread : readReference text = none) :
    resolve (escapeReferences ('\\' :: '&' :: text)) =
      '\\' :: '&' :: resolve (escapeReferences text) := by
  rw [escapeReferences_cons (by simp), escapeReferences_starts starts,
    resolve_escaped (by decide), resolve_bare (by decide)]
  rw [readReference_escapeReferences, unread]
  exact fun _ => rfl

/-- A text is read as no more characters than it has, and as fewer if a backslash is lost. -/
def ReadsShorter (text : List Char) : Prop :=
  (resolve (escapeReferences text)).length + (losesBackslash text).toNat ≤ text.length

theorem readsShorter_cons (apart : c ≠ '\\') (others : ReadsShorter text) :
    ReadsShorter (c :: text) := by
  rw [ReadsShorter, resolve_escapeReferences_cons apart, losesBackslash_cons_of_ne apart,
    List.length_cons, List.length_cons, Nat.add_right_comm]
  exact Nat.succ_le_succ others

/-- Nothing makes up for a backslash that is lost: what is read behind it is no longer than what is
written there. -/
theorem readsShorter_backslash (c : Char)
    (shorter : ∀ other : List Char, other.length ≤ text.length + 1 → ReadsShorter other) :
    ReadsShorter ('\\' :: c :: text) := by
  have behind := shorter text (Nat.le_succ _)
  have others := shorter (c :: text) (Nat.le_refl _)
  have once := Bool.toNat_le (losesBackslash ('\\' :: c :: text))
  simp only [ReadsShorter, List.length_cons] at behind others ⊢
  cases punctuation : isAsciiPunctuation c with
  | false =>
      have same : losesBackslash ('\\' :: c :: text) = losesBackslash (c :: text) := by
        simp [losesBackslash, isEscapable, punctuation]
      rw [resolve_escapeReferences_kept punctuation, same, List.length_cons]
      omega
  | true =>
      by_cases reference : c = '&' ∧ startsReference text
      · obtain ⟨rfl, starts⟩ := reference
        cases found : readReference text with
        | none =>
            have same : losesBackslash ('\\' :: '&' :: text) = losesBackslash text := by
              simp [losesBackslash, isEscapable, starts, found]
            rw [resolve_escapeReferences_unread starts found, same]
            simp only [List.length_cons]
            omega
        | some reference =>
            obtain ⟨tail, less, short⟩ := length_resolve_reference found
            have fromTail : ReadsShorter tail := shorter tail (by omega)
            rw [ReadsShorter] at fromTail
            omega
      · rw [resolve_escapeReferences_lost punctuation (by simpa using reference), List.length_cons]
        omega

theorem readsShorter (text : List Char) : ReadsShorter text := by
  induction measured : text.length using Nat.strong_induction_on generalizing text with
  | _ size induction =>
    subst measured
    match text with
    | [] => exact Nat.zero_le _
    | [c] =>
        by_cases backslash : c = '\\'
        · subst backslash
          exact Nat.le_refl 1
        · exact readsShorter_cons backslash (Nat.zero_le _)
    | c :: d :: text =>
        have shorter : ∀ other : List Char, other.length ≤ text.length + 1 → ReadsShorter other :=
          fun other less => induction _ (Nat.lt_succ_of_le less) other rfl
        by_cases backslash : c = '\\'
        · subst backslash
          exact readsShorter_backslash d shorter
        · exact readsShorter_cons backslash (shorter (d :: text) (Nat.le_refl _))

/-! Scanning what is protected. -/

section

variable {step : Nat → Char → Option Nat} {next : Char} (ends : step 0 next = none)
  (outside : isReferenceChar next = false) (apart : next ∉ ['&', ';'])
  (passed : ∀ c ∈ text, c ≠ '\\' → step 0 c = some 0)

include ends outside apart passed

theorem scan_kept (solid : next ≠ '\\') (kept : losesBackslash (text ++ [next]) = false)
    (rest : List Char) :
    scan step 0 (escapeReferences text ++ next :: rest) =
        ⟨escapeReferences text, 0, next :: rest⟩ ∧
      resolve (escapeReferences text) = text := by
  rw [losesBackslash_concat outside apart, Bool.or_eq_false_iff] at kept
  have last : text.getLast? = some '\\' → isAsciiPunctuation next = false := by
    simpa using kept.2
  have escapes := escapes_escapeReferences kept.1 last passed
  refine ⟨?_, escapes.resolve_eq⟩
  rw [escapes.scan_eq (fun _ goes => goes), scan_stop solid ends, Scanned.behind, List.append_nil]

theorem scan_lost (solid : next ≠ '\\') (lost : losesBackslash (text ++ [next]))
    (rest : List Char) :
    (scan step 0 (escapeReferences text ++ next :: rest) =
          ⟨escapeReferences text, 0, next :: rest⟩ ∧
        resolve (escapeReferences text) ≠ text) ∨
      isAsciiPunctuation next ∧
        scan step 0 (escapeReferences text ++ next :: rest) =
          (scan step 0 rest).behind (escapeReferences text ++ [next]) := by
  cases within : losesBackslash text with
  | true =>
      have passedWritten : ∀ c ∈ escapeReferences text, c ≠ '\\' → step 0 c = some 0 :=
        fun c member unescaped => passed c ((mem_escapeReferences unescaped).1 member) unescaped
      refine (meets solid ends rest passedWritten).imp_left fun stopped => ⟨stopped, fun same => ?_⟩
      have shorter := readsShorter text
      rw [ReadsShorter, same, within] at shorter
      exact absurd shorter (Nat.not_succ_le_self _)
  | false =>
      rw [losesBackslash_concat outside apart, within, Bool.false_or, Bool.and_eq_true,
        decide_eq_true_eq] at lost
      obtain ⟨last, punctuation⟩ := lost
      obtain ⟨start, rfl⟩ := List.getLast?_eq_some_iff.1 last
      rw [losesBackslash_concat (by decide) (by decide), Bool.or_eq_false_iff] at within
      have keepsStart : start.getLast? = some '\\' → isAsciiPunctuation '\\' = false := by
        simpa using within.2
      have passedStart := fun c member => passed c (List.mem_append_left _ member)
      have escapes := escapes_escapeReferences within.1 keepsStart passedStart
      refine .inr ⟨punctuation, ?_⟩
      rw [escapeReferences_concat (by decide) (by decide), List.append_assoc, List.singleton_append,
        escapes.scan_eq (fun _ goes => goes), scan_escaped punctuation, Scanned.behind_behind,
        List.append_assoc]
      rfl

end

end EditorMarkdown.Writer
