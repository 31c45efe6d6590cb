import TemplateCompiler.Proofs.Lex.Progress

/-!
# The ledger of a lexer

The log of a lexer is in order when no change of mode discarded a token, and
every token that was read was either given out in the mode it was read in or is
still held in the mode in force.  Reading on keeps the log in order, also when it
fails; a change of mode does if no token is held.
-/

namespace TemplateCompiler

/-- The token that an entry of a log says was read, and the mode it was read in. -/
def LexEvent.scanned? : LexEvent → Option (LexMode × Token)
  | .scanned mode token => some (mode, token)
  | _ => none

namespace Lexer

/-- No token was discarded, and each was read once: those that were read are those
that were given out in the same mode and those held in the mode in force. -/
structure Ledger (lexer : Lexer) : Prop where
  undisturbed : ∀ discarded, .changed discarded ∈ lexer.history → discarded = []
  once : lexer.history.filterMap LexEvent.scanned? =
    (lexer.lookahead.map fun scanned => (lexer.mode, scanned.token)).reverse ++
      lexer.history.filterMap LexEvent.taken?

variable {lexer after : Lexer}

theorem ledger_ofText (text : List Char) : (ofText text).Ledger :=
  ⟨fun _ impossible => absurd impossible List.not_mem_nil, rfl⟩

theorem Ledger.hold (ledger : lexer.Ledger) (scanned : Scanned) : (lexer.hold scanned).Ledger where
  undisturbed discarded member :=
    ledger.undisturbed discarded ((List.mem_cons.1 member).resolve_left (by simp))
  once := by
    have once := ledger.once
    simp only [Lexer.hold, List.filterMap_cons, LexEvent.scanned?, LexEvent.taken?, once,
      List.map_append, List.reverse_append]
    rfl

theorem Ledger.giveOut {scanned : Scanned} {later : List Scanned} (ledger : lexer.Ledger)
    (held : lexer.lookahead = scanned :: later) : (lexer.giveOut scanned later).Ledger where
  undisturbed discarded member :=
    ledger.undisturbed discarded ((List.mem_cons.1 member).resolve_left (by simp))
  once := by
    have once := ledger.once
    rw [held] at once
    simp only [Lexer.giveOut, List.filterMap_cons, LexEvent.scanned?, LexEvent.taken?, once,
      List.map_cons, List.reverse_cons, List.append_assoc]
    rfl

theorem Ledger.steps (ledger : lexer.Ledger) (steps : Steps lexer after) : after.Ledger := by
  induction steps with
  | refl => exact ledger
  | tail _ step ih =>
      cases step with
      | held found => exact ih.hold _
      | took held => exact ih.giveOut held

theorem Ledger.pushMode (ledger : lexer.Ledger) (empty : lexer.lookahead = []) (mode : LexMode) :
    (lexer.pushMode mode).Ledger where
  undisturbed discarded member := by
    rcases List.mem_cons.1 member with same | earlier
    · rw [LexEvent.changed.inj same, empty]
      rfl
    · exact ledger.undisturbed discarded earlier
  once := by
    have once := ledger.once
    rw [empty] at once
    exact once

theorem Ledger.popMode (ledger : lexer.Ledger) (empty : lexer.lookahead = []) :
    lexer.popMode.Ledger where
  undisturbed discarded member := by
    rcases List.mem_cons.1 member with same | earlier
    · rw [LexEvent.changed.inj same, empty]
      rfl
    · exact ledger.undisturbed discarded earlier
  once := by
    have once := ledger.once
    rw [empty] at once
    exact once

/-- A scan that fails leaves everything but the place of scanning. -/
theorem scan_failed {error : Lex.Error} (failed : scan lexer = .error error after) :
    ∃ reached, after = { lexer with ahead := reached } := by
  unfold scan at failed
  split at failed
  · contradiction
  · simp only at failed
    split at failed
    · contradiction
    · contradiction
    · exact ⟨_, (EStateM.Result.error.inj failed).2.symm⟩

theorem Ledger.scan_failed {error : Lex.Error} (ledger : lexer.Ledger)
    (failed : scan lexer = .error error after) : after.Ledger := by
  obtain ⟨reached, rfl⟩ := Lexer.scan_failed failed
  exact ⟨ledger.undisturbed, ledger.once⟩

theorem Ledger.next (ledger : lexer.Ledger) : (endState (Lexer.next lexer)).Ledger := by
  cases ran : Lexer.next lexer with
  | ok token? after => exact ledger.steps (next_proceeds _ _ _ ran)
  | error error after => exact ledger.scan_failed (next_eq_error ran).2

/-- A lexer that holds a token shows it. -/
theorem peek_of_held {scanned : Scanned} {later : List Scanned}
    (held : lexer.lookahead = scanned :: later) :
    peek 0 lexer = .ok (some scanned.token) lexer := by
  have enough : 0 + 1 - lexer.lookahead.length = 0 := by simp [held]
  simp only [peek, run_bind, run_get, enough, lookFurther, run_pure]
  rw [held]
  rfl

/-- A lexer that holds nothing scans a token and holds it, or there is none. -/
theorem peek_of_empty (empty : lexer.lookahead = []) :
    peek 0 lexer =
      match scan lexer with
      | .ok none after => .ok none after
      | .ok (some scanned) _ => .ok (some scanned.token) (lexer.hold scanned)
      | .error error after => .error error after := by
  have one : 0 + 1 - lexer.lookahead.length = 1 := by simp [empty]
  simp only [peek, run_bind, run_get, one, lookFurther]
  cases found : scan lexer with
  | error error after => rfl
  | ok scanned? after =>
      cases scanned? with
      | none =>
          obtain rfl := scan_ended found
          simp [run_pure, empty]
      | some scanned =>
          obtain ⟨-, -, rfl⟩ := scan_found found
          simp only [run_modify, run_bind, run_pure, empty]
          simp [hold, empty]

end Lexer

end TemplateCompiler
