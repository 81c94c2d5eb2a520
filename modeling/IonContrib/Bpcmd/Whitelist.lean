/-
  IonContrib.Bpcmd.Whitelist

  What `bpcmdd` executes.

  The command line that is checked and the arguments that are executed are two
  readings of one thing: splitting a payload, joining its words and splitting
  again gives the same words, whatever the payload (`tokenize_joinArgv`).

  The check itself is as good as the rules.  A regular expression is anchored
  by pasting its text between `^(` and `)$`, which is no anchor for a pattern
  with a `)` that closes the parenthesis in front of it: `a)|(b` becomes
  `^(a)|(b)$` and lets through every line that starts with `a` or ends
  with `b`.
-/
import IonContrib.Bpcmd.Daemon

namespace IonContrib.Bpcmd

open Posix (Ere Enclosed regcomp regexec spansAll octetsOf)

/-! ## Splitting and joining -/

theorem strtok_none {s : Octets} (h : strtok s = none) : words isWs s = [] := by
  unfold strtok at h
  simp only at h
  split at h
  · rename_i h_nil
    rw [← words_dropWhile, h_nil, words_nil]
  · cases h

/-- `strtok` takes the first word, and what is left is shorter. -/
theorem strtok_some {s tok rest : Octets} (h : strtok s = some (tok, rest)) :
    words isWs s = tok :: words isWs rest ∧ rest.length < s.length := by
  unfold strtok at h
  simp only at h
  split at h
  · cases h
  rename_i h_some
  obtain ⟨rfl, rfl⟩ := Prod.mk.inj (Option.some.inj h)
  obtain ⟨c, t, h_eq⟩ := List.exists_cons_of_ne_nil h_some
  have h_c := dropWhile_head h_eq
  have h_le := List.length_dropWhile_le isWs s
  rw [h_eq] at h_le ⊢
  refine ⟨words_first h_eq, ?_⟩
  -- At least the first octet of the token is gone.
  have h_drop : (c :: t).dropWhile (fun x => !isWs x) = t.dropWhile (fun x => !isWs x) := by
    simp [h_c]
  have h_rest := List.length_dropWhile_le (fun x => !isWs x) t
  rw [h_drop, List.length_tail]
  rw [List.length_cons] at h_le
  omega

/-- The loop of `tokenize` finds all the words, or runs out of memory. -/
theorem tokenizeFrom_spec {mem : Nat → Bool} {fuel cap : Nat} {line : Octets}
    {argv : List Octets} (h_fuel : line.length < fuel) :
    (tokenizeFrom mem fuel line cap argv = none ∨
        tokenizeFrom mem fuel line cap argv = some (argv ++ words isWs line)) ∧
      ((∀ n, mem n = true) →
        tokenizeFrom mem fuel line cap argv = some (argv ++ words isWs line)) := by
  induction fuel generalizing line cap argv with
  | zero => omega
  | succ fuel ih =>
    rw [tokenizeFrom]
    cases h_tok : strtok line with
    | none =>
      rw [strtok_none h_tok, List.append_nil]
      exact ⟨Or.inr rfl, fun _ => rfl⟩
    | some p =>
      obtain ⟨tok, rest⟩ := p
      obtain ⟨h_words, h_shorter⟩ := strtok_some h_tok
      have h_next : ∀ cap, _ := fun cap =>
        @ih cap rest (argv ++ [tok]) (by omega)
      rw [List.append_assoc, List.singleton_append, ← h_words] at h_next
      simp only
      by_cases h_full : argv.length + 1 ≥ cap
      · rw [if_pos h_full]
        by_cases h_mem : mem (2 * cap) = true
        · rw [if_pos h_mem]
          exact h_next (2 * cap)
        · rw [if_neg h_mem]
          exact ⟨Or.inl rfl, fun h_all => absurd (h_all _) h_mem⟩
      · rw [if_neg h_full]
        exact h_next cap

theorem tokenize_spec (mem : Nat → Bool) (line : Octets) :
    (tokenize mem line = none ∨ tokenize mem line = some (words isWs line)) ∧
      ((∀ n, mem n = true) → tokenize mem line = some (words isWs line)) := by
  unfold tokenize
  by_cases h_mem : mem 8 = true
  · rw [if_pos h_mem]
    exact @tokenizeFrom_spec _ _ _ _ [] (Nat.lt_succ_self _)
  · rw [if_neg h_mem]
    exact ⟨Or.inl rfl, fun h_all => absurd (h_all 8) h_mem⟩

/-- **Splitting the line that was joined gives the arguments it was joined from.** -/
theorem tokenize_joinArgv {mem mem' : Nat → Bool} {line : Octets} {argv : List Octets}
    (h : tokenize mem line = some argv) (h_mem : ∀ n, mem' n = true) :
    tokenize mem' (joinArgv argv) = some argv := by
  have h_argv : argv = words isWs line := by
    rcases (tokenize_spec mem line).1 with h_none | h_some
    · rw [h_none] at h
      cases h
    · rw [h_some] at h
      exact (Option.some.inj h).symm
  rw [(tokenize_spec mem' (joinArgv argv)).2 h_mem, joinArgv, h_argv,
    words_join (by decide) (isWord_words line)]

/-! ## What a rule permits -/

/-- The rule matches the whole of the command line: it is the same, or the pattern matches
    all of it, or a match of the pattern spans it from its first to its last octet. -/
def Rule.Permits (fnmatch : Octets → Octets → Bool) (line : Octets) (r : Rule) : Prop :=
  match r.mode with
  | .matchExact => r.pattern = line
  | .matchGlob => fnmatch r.pattern line = true
  | .matchRegex => ∃ e, regcomp r.pattern = some e ∧ spansAll e line = true

/-- A regular expression with a `)` that closes the parenthesis of `addRule`. -/
def Rule.Stray (r : Rule) : Prop := r.mode = .matchRegex ∧ ¬ Enclosed r.pattern

/-- Every rule that lets the line through is a stray one, and the pattern of none of them,
    read on its own, spans the line. -/
structure OnlyStray (cfg : BpcmddCfg) (line : Octets) : Prop where
  stray : ∀ r ∈ cfg.rules, ruleAllows cfg.fnmatch line r = true → r.Stray
  unspanned : ∀ r ∈ cfg.rules, r.Stray → ¬ r.Permits cfg.fnmatch line

/-- **Any other rule is what `commandAllowed` takes it for.** -/
theorem ruleAllows_iff {fnmatch : Octets → Octets → Bool} {line : Octets} {r : Rule}
    (h : ¬ r.Stray) : ruleAllows fnmatch line r = true ↔ r.Permits fnmatch line := by
  unfold ruleAllows Rule.Permits
  cases h_mode : r.mode with
  | matchExact => simp
  | matchGlob => rfl
  | matchRegex =>
    have h_enc : Enclosed r.pattern := by
      by_contra h_not
      exact h ⟨h_mode, h_not⟩
    have h_re : r.re = (regcomp r.pattern).map Posix.anchor := by
      rw [r.compiled, if_pos h_mode]
      exact Posix.regcomp_anchored h_enc
    simp only [h_re]
    cases regcomp r.pattern with
    | none => simp
    | some e =>
      rw [Option.map_some, Option.any_some, Posix.regexec_anchor]
      simp

/-- A line is permitted by some rule, unless at most strays let it through. -/
theorem permits_iff {cfg : BpcmddCfg} {line : Octets} :
    (∃ r ∈ cfg.rules, r.Permits cfg.fnmatch line) ↔ ¬ OnlyStray cfg line := by
  constructor
  · rintro ⟨r, h_r, h_permits⟩ h_only
    by_cases h_stray : r.Stray
    · exact h_only.unspanned r h_r h_stray h_permits
    · exact h_stray (h_only.stray r h_r ((ruleAllows_iff h_stray).mpr h_permits))
  · intro h_not
    by_contra h_none
    refine h_not ⟨fun r h_r h_allows => ?_, fun r h_r _ h_permits => h_none ⟨r, h_r, h_permits⟩⟩
    by_contra h_stray
    exact h_none ⟨r, h_r, (ruleAllows_iff h_stray).mp h_allows⟩

/-- A table without a stray rule lets nothing else through. -/
theorem not_onlyStray {cfg : BpcmddCfg} {line : Octets} (h_rules : ∀ r ∈ cfg.rules, ¬ r.Stray)
    (h : commandAllowed cfg line = true) : ¬ OnlyStray cfg line := by
  intro h_only
  obtain ⟨r, h_r, h_allows⟩ := List.any_eq_true.mp h
  exact h_rules r h_r (h_only.stray r h_r h_allows)

/-! ## What is executed -/

theorem exec_not_mem_sendReply {l : Luck} {dest : Option Octets} {data : Octets}
    {argv : List Octets} {src : Option Octets} {own : Octets} :
    .exec argv src own ∉ sendReply l dest data := by
  unfold sendReply
  split
  · simp
  · split <;> simp

/-- What is executed for a payload was split off it, and the line it was joined to was
    allowed. -/
theorem handlePayload_exec {cfg : BpcmddCfg} {l : Luck} {src src' : Option Octets}
    {payload own : Octets} {argv : List Octets}
    (h : .exec argv src' own ∈ handlePayload cfg l src payload) :
    tokenize l.argvMem (cString payload) = some argv ∧
      commandAllowed cfg (joinArgv argv) = true := by
  unfold handlePayload at h
  split at h
  · simp at h
  · simp at h
  rename_i cmdArgv _ h_tok
  split at h
  · simp at h
  simp only at h
  split at h
  · rcases List.mem_cons.mp h with h | h
    · cases h
    · exact absurd h exec_not_mem_sendReply
  rename_i h_allowed
  rcases List.mem_append.mp h with h | h
  · unfold runCommand at h
    split at h
    · simp only at h
      split at h
      · rw [List.mem_singleton] at h
        cases h
        exact ⟨h_tok, by simpa using h_allowed⟩
      · simp at h
    · simp at h
  · split at h
    · simp at h
    · split at h
      · simp at h
      · exact absurd h exec_not_mem_sendReply

theorem handleDelivery_exec {cfg : BpcmddCfg} {dlv : BpDelivery} {l : Luck}
    {src : Option Octets} {own : Octets} {argv : List Octets}
    (h : .exec argv src own ∈ (handleDelivery cfg dlv l).1) :
    ∃ mem payload, tokenize mem payload = some argv ∧
      commandAllowed cfg (joinArgv argv) = true := by
  unfold handleDelivery at h
  split at h
  · simp at h
  · simp at h
  · simp at h
  · simp at h
  · rename_i payload _ _
    split at h
    · simp at h
    split at h
    · simp at h
    · exact ⟨l.argvMem, cString payload, handlePayload_exec h⟩

/-- In a run, by induction on its rounds. -/
theorem mainLoop_exec {cfg : BpcmddCfg} {rounds : List (Option (BpDelivery × Luck))}
    {src : Option Octets} {own : Octets} {argv : List Octets}
    (h : .exec argv src own ∈ mainLoop cfg rounds) :
    ∃ mem payload, tokenize mem payload = some argv ∧
      commandAllowed cfg (joinArgv argv) = true := by
  induction rounds with
  | nil => cases h
  | cons round rounds ih =>
    cases round with
    | none => cases h
    | some p =>
      simp only [mainLoop] at h
      rcases List.mem_append.mp h with h | h
      · exact handleDelivery_exec h
      · split at h
        · exact ih h
        · cases h

/-- **What `bpcmdd` executes in any run is what it checked, and it is permitted by a rule
    exactly if the check was not passed by stray rules alone**, so always when no rule is
    stray. -/
theorem run_exec_permitted (cfg : BpcmddCfg) {rounds : List (Option (BpDelivery × Luck))}
    {src : Option Octets} {own : Octets} {argv : List Octets}
    (h : .exec argv src own ∈ mainLoop cfg rounds) :
    (∀ mem : Nat → Bool, (∀ n, mem n = true) → tokenize mem (joinArgv argv) = some argv) ∧
      ((∃ r ∈ cfg.rules, r.Permits cfg.fnmatch (joinArgv argv)) ↔
        ¬ OnlyStray cfg (joinArgv argv)) ∧
      ((∀ r ∈ cfg.rules, ¬ r.Stray) →
        ∃ r ∈ cfg.rules, r.Permits cfg.fnmatch (joinArgv argv)) := by
  obtain ⟨mem, payload, h_tok, h_allowed⟩ := mainLoop_exec h
  refine ⟨fun mem' h_mem => tokenize_joinArgv h_tok h_mem, permits_iff, fun h_rules => ?_⟩
  exact permits_iff.mpr (not_onlyStray h_rules h_allowed)

/-! ## A whitelist of two commands -/

/-- The rule of `addRule` for a regular expression that compiles. -/
def regexRule (pattern : Octets) (h : (regcomp (anchored pattern)).isSome = true) : Rule :=
  ⟨.matchRegex, pattern, regcomp (anchored pattern), (if_pos rfl).symm, fun _ => h⟩

def sampleCfg (rule : Rule) : BpcmddCfg := ⟨[rule], none, fun _ _ => false, [], true⟩

/-- A payload whose command is executed if it is allowed. -/
def sampleRound (payload : Octets) : Option (BpDelivery × Luck) :=
  some (⟨.bpPayloadPresent, none, some payload⟩,
    ⟨true, true, fun _ => true, true, true, true, none, true⟩)

/-- `date|uptime`, one alternative for each command. -/
def soundRule : Rule := regexRule (octetsOf "date|uptime") (by decide +kernel)

/-- The alternatives put into parentheses of their own. -/
def strayRule : Rule := regexRule (octetsOf "date)|(uptime") (by decide +kernel)

theorem run_exec_permitted_date :
    ∃ argv src own, .exec argv src own ∈ mainLoop (sampleCfg soundRule)
        [sampleRound (octetsOf " date\n")] ∧
      ∃ r ∈ (sampleCfg soundRule).rules, r.Permits (fun _ _ => false) (joinArgv argv) := by
  have h_exec : .exec [octetsOf "date"] none [] ∈ mainLoop (sampleCfg soundRule)
      [sampleRound (octetsOf " date\n")] := by decide +kernel
  refine ⟨_, _, _, h_exec, (run_exec_permitted _ h_exec).2.2 ?_⟩
  intro r h_r h_stray
  rw [List.mem_singleton.mp h_r] at h_stray
  exact h_stray.2 (by decide +kernel)

/-- The system clock is set by somebody who may ask for the time. -/
theorem stray_exec :
    .exec [octetsOf "date", octetsOf "-s", octetsOf "0"] none [] ∈
        mainLoop (sampleCfg strayRule) [sampleRound (octetsOf "date -s 0")] ∧
      ¬ ∃ r ∈ (sampleCfg strayRule).rules, r.Permits (fun _ _ => false)
        (joinArgv [octetsOf "date", octetsOf "-s", octetsOf "0"]) := by
  refine ⟨by decide +kernel, ?_⟩
  rintro ⟨r, h_r, h_permits⟩
  rw [List.mem_singleton.mp h_r] at h_permits
  -- The pattern on its own has a parenthesis without an end.
  obtain ⟨e, h_e, -⟩ := h_permits
  have h_none : regcomp (octetsOf "date)|(uptime") = none := by decide +kernel
  rw [show strayRule.pattern = octetsOf "date)|(uptime" from rfl, h_none] at h_e
  cases h_e

end IonContrib.Bpcmd
