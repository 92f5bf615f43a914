import Deepstream.Flex.Scanner
import Deepstream.Message

/-!
The rules of `lexer.l` and what one match does in each start condition.

The lexer resynchronises through `yyerror`: the first letter of a broken piece is
retained by `yymore`, and the rest of the piece with all following record
separators is appended to it.
-/

namespace Deepstream

/-- `deepstream_token` without the dummy `TOKEN_MAXVAL`. -/
inductive Token where
  | eof | unknown | payload | messageSeparator
  | aA | aEIam | aEIad | aETmaa | aReq
  | cA | cCh | cChr | cPi | cPo | cRed | cRej
  | eAL | eAS | eAUs | eEvt | eL | eLa | eLr | eS | eSp | eSr | eUs
  | uAS | uAUs | uPnj | uPnl | uQ | uS | uUs
  deriving DecidableEq, Repr

namespace Lexer
open Flex

inductive Condition where
  | initial | yypayload | yyerror
  deriving DecidableEq, Repr

abbrev Rule := Flex.Rule UInt8 Condition Token
abbrev Scanner := Flex.Scanner UInt8 Condition

def isMps (c : UInt8) : Bool := c == 0x1f
def isMs (c : UInt8) : Bool := c == 0x1e
def isNs (c : UInt8) : Bool := c != 0x1e && c != 0x1f

def mps : Pattern UInt8 := .cls isMps
def ms : Pattern UInt8 := .cls isMs
def ns : Pattern UInt8 := .cls isNs
def dot : Pattern UInt8 := .cls (· != 0x0a)
def newline : Pattern UInt8 := .cls (· == 0x0a)

/-- A header rule: words joined by `{MPS}`. -/
def header (words : List String) (token : Token) : Rule :=
  { start := .initial
    pattern := .literal (List.intercalate [0x1f] (words.map bytes))
    action := { start := some .yypayload, result := some token } }

def initialRules : List Rule :=
  [ { start := .initial, pattern := ms, action := { result := some .unknown } }
  , { start := .initial, pattern := dot, action := { start := some .yyerror, more := true } }
  , { start := .initial, pattern := newline, action := { start := some .yyerror, more := true } } ]

def payloadRules : List Rule :=
  [ { start := .yypayload, pattern := .seq mps (.plus ns), action := { result := some .payload } }
  , { start := .yypayload, pattern := ms
      action := { start := some .initial, result := some .messageSeparator } }
  , { start := .yypayload, pattern := dot, action := { start := some .yyerror, more := true } }
  , { start := .yypayload, pattern := newline
      action := { start := some .yyerror, more := true } } ]

def errorRules : List Rule :=
  [ { start := .yyerror, pattern := .seq (.star (.cls (· != 0x1e))) (.star ms)
      action := { start := some .initial, result := some .unknown } } ]

def headerRules : List Rule :=
  [ header ["A", "A"] .aA
  , header ["A", "E", "INVALID_AUTH_DATA"] .aEIad
  , header ["A", "E", "INVALID_AUTH_MSG"] .aEIam
  , header ["A", "E", "TOO_MANY_AUTH_ATTEMPTS"] .aETmaa
  , header ["A", "REQ"] .aReq
  , header ["C", "A"] .cA
  , header ["C", "CH"] .cCh
  , header ["C", "CHR"] .cChr
  , header ["C", "PI"] .cPi
  , header ["C", "PO"] .cPo
  , header ["C", "RED"] .cRed
  , header ["C", "REJ"] .cRej
  , header ["E", "A", "L"] .eAL
  , header ["E", "A", "S"] .eAS
  , header ["E", "A", "US"] .eAUs
  , header ["E", "EVT"] .eEvt
  , header ["E", "L"] .eL
  , header ["E", "LA"] .eLa
  , header ["E", "LR"] .eLr
  , header ["E", "S"] .eS
  , header ["E", "SP"] .eSp
  , header ["E", "SR"] .eSr
  , header ["E", "US"] .eUs
  , header ["U", "A", "S"] .uAS
  , header ["U", "A", "US"] .uAUs
  , header ["U", "PNJ"] .uPnj
  , header ["U", "PNL"] .uPnl
  , header ["U", "Q"] .uQ
  , header ["U", "S", "S"] .uS
  , header ["U", "US", "US"] .uUs ]

/-- The rules in the order of `lexer.l`. The unqualified `<<EOF>>` rule covers the two
conditions without one of their own. -/
def spec : Flex.Spec UInt8 Condition Token where
  rules := headerRules ++ initialRules ++ payloadRules ++ errorRules
  eof
    | .yyerror => { start := some .initial, less := some 1, result := some .unknown }
    | _ => { result := some .eof, terminate := true }
  eob := 0

end Lexer

/-- The tokens of the table headers, in the table's order. -/
def headerTokens : List Token :=
  [ .aA, .aEIad, .aEIam, .aETmaa, .aReq
  , .cA, .cCh, .cChr, .cPi, .cPo, .cRed, .cRej
  , .eAL, .eAS, .eAUs, .eEvt, .eL, .eLa, .eLr, .eS, .eSp, .eSr, .eUs
  , .uAS, .uAUs, .uPnj, .uPnl, .uQ, .uS, .uUs ]

def TableHeader.token (h : TableHeader) : Token :=
  ((headers.zip headerTokens).lookup h.val).getD .unknown

namespace Lexer
open Flex

def ruleOf (h : TableHeader) : Rule :=
  { start := .initial
    pattern := .literal h.binary
    action := { start := some .yypayload, result := some h.token } }

/-- The header table and the header rules describe the same lexemes in the same order. -/
theorem headerRules_eq : headerRules = tableHeaders.map ruleOf := by
  rfl

theorem binary_injective (h h' : TableHeader) (heq : h.binary = h'.binary) : h = h' := by
  have table : ∀ a ∈ tableHeaders, ∀ b ∈ tableHeaders, a.binary = b.binary → a = b := by
    decide
  exact table h (mem_tableHeaders h) h' (mem_tableHeaders h') heq

theorem tableHeaders_nodup : tableHeaders.Nodup := by
  decide

theorem binary_length_pos (h : TableHeader) : 0 < h.binary.length := by
  revert h
  rw [forall_tableHeader]
  decide

/-- Every rule that can match at the beginning of a message is a header rule or matches
one letter. -/
theorem longest_initialRules (r : Rule) (hr : r ∈ initialRules ++ payloadRules ++ errorRules)
    (hc : r.start = .initial) (input : Buffer) (n : Nat)
    (hn : r.pattern.longest input = some n) : n ≤ 1 := by
  have hcls : ∃ p, r.pattern = .cls p := by
    simp only [initialRules, payloadRules, errorRules, List.mem_append, List.mem_cons,
      List.not_mem_nil, or_false] at hr
    rcases hr with ((rfl | rfl | rfl) | rfl | rfl | rfl | rfl) | rfl <;>
      first | exact ⟨_, rfl⟩ | cases hc
  obtain ⟨p, hp⟩ := hcls
  rw [hp] at hn
  cases input with
  | nil => simp [Pattern.longest, Pattern.nullable] at hn
  | cons x xs =>
      rw [Pattern.longest_cls] at hn
      split at hn <;> simp_all

/-- Among the headers the input begins with, the longest one is read. -/
theorem step_header (h : TableHeader) (after : Buffer)
    (hmax : ∀ h' : TableHeader, h'.binary <+: h.binary ++ after →
      h'.binary.length ≤ h.binary.length) :
    step spec ⟨.initial, [], h.binary ++ after⟩
      = (some (h.token, h.binary), some ⟨.yypayload, [], after⟩) := by
  obtain ⟨before, later, hsplit⟩ := List.append_of_mem (mem_tableHeaders h)
  have hrules : spec.rules = before.map ruleOf ++ ruleOf h :: (later.map ruleOf ++
      (initialRules ++ payloadRules ++ errorRules)) := by
    simp [spec, headerRules_eq, hsplit]
  have hmatch : ∀ h' m, (ruleOf h').pattern.longest (h.binary ++ after) = some m →
      m = h'.binary.length ∧ h'.binary <+: h.binary ++ after := by
    intro h' m hm
    rw [ruleOf, Pattern.longest_literal] at hm
    split at hm
    · cases hm
      exact ⟨rfl, by assumption⟩
    · cases hm
  have hselect : select spec.rules .initial (h.binary ++ after)
      = some (h.binary.length, (ruleOf h).action) := by
    rw [hrules]
    apply select_of_best
    · rfl
    · rw [ruleOf, Pattern.longest_literal, if_pos (List.prefix_append _ _)]
    · intro r hr _ m hm
      obtain ⟨h', hh', rfl⟩ := List.mem_map.mp hr
      obtain ⟨rfl, hpre⟩ := hmatch h' m hm
      refine Nat.lt_of_le_of_ne (hmax h' hpre) fun hlen => ?_
      have heq := (List.prefix_of_prefix_length_le hpre (List.prefix_append _ _) hlen.le).eq_of_length hlen
      obtain rfl := binary_injective _ _ heq
      have hnodup := tableHeaders_nodup
      rw [hsplit, List.nodup_append] at hnodup
      exact hnodup.2.2 _ hh' _ List.mem_cons_self rfl
    · intro r hr hc m hm
      rcases List.mem_append.mp hr with hr | hr
      · obtain ⟨h', _, rfl⟩ := List.mem_map.mp hr
        obtain ⟨rfl, hpre⟩ := hmatch h' m hm
        exact hmax h' hpre
      · exact (longest_initialRules r hr hc _ m hm).trans (binary_length_pos h)
  have hne := List.ne_nil_of_length_pos (binary_length_pos h)
  rw [step_of_select spec _ [] _ after _ hne rfl hselect]
  rfl

theorem select_header_eq_none (input : Buffer) (h : ∀ h : TableHeader, ¬h.binary <+: input) :
    select headerRules .initial input = none := by
  rw [headerRules_eq, select_eq_none_iff]
  intro r hr _
  obtain ⟨h', _, rfl⟩ := List.mem_map.mp hr
  rw [ruleOf, Pattern.longest_literal, if_neg (h h')]

theorem not_mem_binary (h : TableHeader) : 0x1e ∉ h.binary := by
  revert h
  rw [forall_tableHeader]
  decide

theorem select_initial (input : Buffer) (h : ∀ h : TableHeader, ¬h.binary <+: input) :
    select spec.rules .initial input = select initialRules .initial input := by
  rw [← select_filter]
  exact select_append_of_none headerRules _ _ _ (select_header_eq_none input h)

theorem step_separator (after : Buffer) :
    step spec ⟨.initial, [], 0x1e :: after⟩
      = (some (.unknown, [0x1e]), some ⟨.initial, [], after⟩) := by
  have hselect : select spec.rules .initial (0x1e :: after) =
      some (1, { result := some .unknown }) := by
    rw [select_initial]
    · simp [select, initialRules, ms, dot, newline, isMs, Pattern.longest_cls]
    · rintro h ⟨t, ht⟩
      have hpos := binary_length_pos h
      have hmem := not_mem_binary h
      cases hb : h.binary with
      | nil => simp [hb] at hpos
      | cons c t' => simp_all
  exact step_of_select spec .initial [] [0x1e] after _ (List.cons_ne_nil _ _) rfl hselect

theorem step_unknown (x : UInt8) (after : Buffer) (hx : x ≠ 0x1e)
    (h : ∀ h : TableHeader, ¬h.binary <+: x :: after) :
    step spec ⟨.initial, [], x :: after⟩ = (none, some ⟨.yyerror, [x], after⟩) := by
  have hselect : select spec.rules .initial (x :: after) =
      some (1, { start := some .yyerror, more := true }) := by
    rw [select_initial _ h]
    by_cases hnl : x = 0x0a <;>
      simp [select, initialRules, ms, dot, newline, isMs, Pattern.longest_cls, hx, hnl]
  exact step_of_select spec .initial [] [x] after _ (List.cons_ne_nil _ _) rfl hselect

theorem step_payload (arg after : Buffer) (hne : arg ≠ []) (harg : ∀ c ∈ arg, isNs c = true)
    (hafter : ∀ c ∈ after.head?, isNs c = false) :
    step spec ⟨.yypayload, [], 0x1f :: arg ++ after⟩
      = (some (.payload, 0x1f :: arg), some ⟨.yypayload, [], after⟩) := by
  have hselect : select spec.rules .yypayload (0x1f :: arg ++ after) =
      some ((0x1f :: arg).length, { result := some .payload }) := by
    rw [← select_filter]
    change select payloadRules .yypayload _ = _
    have hrun := Pattern.longest_cls_plus isMps isNs 0x1f arg after rfl hne harg hafter
    simp only [List.cons_append] at hrun
    simp [select, payloadRules, mps, ms, ns, dot, newline, isMs, Pattern.longest_cls, hrun]
  exact step_of_select spec .yypayload [] (0x1f :: arg) after _ (List.cons_ne_nil _ _) rfl hselect

theorem step_messageSeparator (after : Buffer) :
    step spec ⟨.yypayload, [], 0x1e :: after⟩
      = (some (.messageSeparator, [0x1e]), some ⟨.initial, [], after⟩) := by
  have hselect : select spec.rules .yypayload (0x1e :: after) =
      some (1, { start := some .initial, result := some .messageSeparator }) := by
    rw [← select_filter]
    change select payloadRules .yypayload _ = _
    have hrun := Pattern.longest_cls_plus_eq_none isMps isNs 0x1e after nofun
    simp [select, payloadRules, mps, ms, ns, dot, newline, isMs, Pattern.longest_cls, hrun]
  exact step_of_select spec .yypayload [] [0x1e] after _ (List.cons_ne_nil _ _) rfl hselect

/-- Anything else after a header or an argument is a broken payload. -/
theorem step_corrupt (x : UInt8) (after : Buffer) (hx : x ≠ 0x1e)
    (hafter : x = 0x1f → ∀ c ∈ after.head?, isNs c = false) :
    step spec ⟨.yypayload, [], x :: after⟩ = (none, some ⟨.yyerror, [x], after⟩) := by
  have hselect : select spec.rules .yypayload (x :: after) =
      some (1, { start := some .yyerror, more := true }) := by
    rw [← select_filter]
    change select payloadRules .yypayload _ = _
    have hrun := Pattern.longest_cls_plus_eq_none isMps isNs x after (by simpa [isMps] using hafter)
    simp only [select, payloadRules, mps, ns, hrun, ite_true]
    by_cases hnl : x = 0x0a <;>
      simp [ms, dot, newline, isMs, Pattern.longest_cls, hx, hnl]
  exact step_of_select spec .yypayload [] [x] after _ (List.cons_ne_nil _ _) rfl hselect

/-- The rest of a broken piece, with every record separator behind it. -/
theorem step_error (x : UInt8) (text separators after : Buffer)
    (htext : ∀ c ∈ text, c ≠ 0x1e) (hseparators : ∀ c ∈ separators, c = 0x1e)
    (hne : text ++ separators ≠ []) (hafter : ∀ c ∈ after.head?, c ≠ 0x1e)
    (hend : separators = [] → after = []) :
    step spec ⟨.yyerror, [x], text ++ separators ++ after⟩
      = (some (.unknown, x :: text ++ separators), some ⟨.initial, [], after⟩) := by
  have hselect : select spec.rules .yyerror (text ++ separators ++ after) =
      some ((text ++ separators).length, { start := some .initial, result := some .unknown }) := by
    rw [← select_filter]
    change select errorRules .yyerror _ = _
    have hrun := Pattern.longest_star_star (· != 0x1e) isMs text separators after
      (by simpa using htext) (by simpa [isMs] using hseparators) (by simp [isMs])
      (fun c hc => ⟨by simpa [isMs] using hafter c hc, fun hs => by simp [hend hs] at hc⟩)
    simp only [select, errorRules, ms, hrun, ite_true, List.length_append]
  rw [step_of_select spec .yyerror [x] (text ++ separators) after _ hne rfl hselect]
  rfl

theorem step_eof (c : Condition) (hc : c ≠ .yyerror) :
    step spec ⟨c, [], []⟩ = (some (.eof, [0]), none) := by
  cases c with
  | initial => rfl
  | yypayload => rfl
  | yyerror => exact (hc rfl).elim

theorem step_eof_error (x : UInt8) :
    step spec ⟨.yyerror, [x], []⟩ = (some (.unknown, [x]), some ⟨.initial, [], []⟩) :=
  rfl

end Lexer
end Deepstream
