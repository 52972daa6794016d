import LittleComputer.Proofs.Devices
import LittleComputer.Proofs.Input

/-!
# Input that is not read

A terminal shows its input one character at a time, and neither those behind the next one nor how
many there are.  What a run has not read can therefore be exchanged for anything else.

* `Terminal.Continued` — terminals whose input has the same beginning and continues differently;
  `Terminal.simulation_continued` — they agree until the beginning has been read.
* `Session.lost_of_ends`, `not_loses_of_run` — a terminal that is not lost when a run has ended was
  not lost on the way.
* `runOn_unread` — **input that is not read cannot influence a run**.
-/

namespace LittleComputer

/-! ## Terminals with the same input for a while -/

namespace Terminal

/-- The terminals have the same input for a while; then one continues with `rest` and the other with
`rest'`. -/
def Continued (rest rest' : List Nat) (t t' : Terminal) : Prop :=
  ∃ first, t.pending = first ++ rest ∧ t' = { t with pending := first ++ rest' }

/-- The rest of the input has been touched: a character of it has been taken, or one was asked for
behind it. -/
def Touched (rest : List Nat) (t : Terminal) : Prop :=
  t.pending.length < rest.length ∨ t.Overrun

variable {rest rest' : List Nat} {t t' : Terminal}

/-- What has been touched stays so. -/
theorem closed_touched (rest : List Nat) : Machine.Closed fun m => m.terminal.Touched rest where
  setRegister _ _ hm := hm
  setResult _ _ hm := hm
  store _ _ hm := hm
  read {m} hm := by
    show m.terminal.read.2.Touched rest
    rw [Touched, pending_read, List.length_tail, overrun_read]
    exact hm.imp (fun hlt => by omega) .inl
  writeAll {m} codes hm := by
    show (m.terminal.writeAll codes).Touched rest
    rw [Touched, (input_writeAll _ _).1, overrun_writeAll]
    exact hm
  flush {m} hm := by
    show m.terminal.flush.Touched rest
    rw [Touched, overrun_flush]
    exact hm
  resetCodes hm := hm
  move _ _ hm := hm
  setStatus _ hm := hm

/-- A read touches the rest, or it takes a character that both terminals have. -/
theorem Continued.read (h : t.Continued rest rest' t') :
    t.read.2.Touched rest ∨ t.read.1 = t'.read.1 ∧ t.read.2.Continued rest rest' t'.read.2 := by
  obtain ⟨first, hpending, rfl⟩ := h
  cases first with
  | nil =>
      left
      rw [List.nil_append] at hpending
      rw [Touched, pending_read, overrun_read, hpending, List.length_tail]
      cases rest with
      | nil => exact .inr (.inr rfl)
      | cons code rest => exact .inl (Nat.lt_succ_self _)
  | cons code first =>
      right
      obtain ⟨_, _, _, _, _, _⟩ := t
      cases hpending
      exact ⟨rfl, first, rfl, rfl⟩

theorem Continued.writeAll (codes : List Int) (h : t.Continued rest rest' t') :
    (t.writeAll codes).Continued rest rest' (t'.writeAll codes) := by
  induction codes generalizing t t' with
  | nil => exact h
  | cons code codes ih =>
      have hwrite : (t.write code).Continued rest rest' (t'.write code) := by
        obtain ⟨first, hpending, rfl⟩ := h
        exact ⟨first, hpending, rfl⟩
      exact ih hwrite

/-- **They agree until the rest is touched.** -/
theorem simulation_continued (rest rest' : List Nat) :
    Simulation (Continued rest rest') (Touched rest) where
  codes := by
    rintro t _ ⟨first, -, rfl⟩
    exact ⟨rfl, rfl⟩
  read h := h.read
  writeAll codes h := h.writeAll codes
  flush := by
    rintro t _ ⟨first, hpending, rfl⟩
    exact ⟨first, hpending, rfl⟩
  resetCodes := by
    rintro t _ ⟨first, hpending, rfl⟩
    exact ⟨first, hpending, rfl⟩
  lost := closed_touched rest

end Terminal

/-! ## Terminals that are not lost in the end -/

section Lost

variable {Lost : Terminal → Prop} {settings : Settings} {s t : Session}

/-- The last turn of a run, too, leaves the terminal lost if it loses it. -/
theorem Session.lost_of_ends {ending : Ending} (h : Ends settings s ending t)
    (hloses : s.Loses settings Lost) : Lost t.machine.terminal := by
  obtain ⟨hrunning, hlimit, hlost⟩ := hloses
  cases h with
  | halted hstopped => cases hrunning.symm.trans hstopped
  | exhausted _ hlimited => cases hlimit.symm.trans hlimited
  | faulted _ _ hcycle =>
      rw [Exec.left_of_error hcycle] at hlost
      exact hlost
  | interrupted _ _ hcycle =>
      rw [Exec.left_of_error hcycle] at hlost
      exact hlost

/-- **What is not lost when a run has ended** was not lost on the way. -/
theorem Session.not_loses_of_runFor (hclosed : Machine.Closed fun m => Lost m.terminal)
    {fuel : Nat} {ending : Ending} (h : runFor settings fuel s = some (ending, t))
    (hkept : ¬ Lost t.machine.terminal) {n : Nat} {u : Session} (hu : after settings n s = some u) :
    ¬ u.Loses settings Lost := by
  induction fuel generalizing s n with
  | zero => cases h
  | succ fuel ih =>
      rw [runFor] at h
      cases hturn : s.turn settings with
      | next v =>
          rw [hturn] at h
          cases n with
          | zero =>
              cases hu
              intro hloses
              exact hkept (closed_runFor hclosed h ((loses_iff_of_next hturn).1 hloses))
          | succ n =>
              obtain ⟨v', hturn', hrest⟩ := after_succ_eq_some_iff.1 hu
              cases hturn.symm.trans hturn'
              exact ih h hrest
      | «over» ending' v =>
          rw [hturn] at h
          cases h
          cases n with
          | zero =>
              cases hu
              intro hloses
              exact hkept (hclosed.flush (lost_of_ends (turn_eq_over_iff.1 hturn) hloses))
          | succ n =>
              obtain ⟨v', hturn', -⟩ := after_succ_eq_some_iff.1 hu
              cases hturn.symm.trans hturn'
      | endless =>
          rw [hturn] at h
          cases h

/-- A run of a program that has kept its terminal has kept it all along. -/
theorem not_loses_of_run (hclosed : Machine.Closed fun m => Lost m.terminal) {program : Program}
    {terminal : Terminal} {journal : Journal} {fuel : Nat} {c : Conclusion}
    (hs : program.session? settings.sorted.options terminal journal = some s)
    (h : run fuel settings program terminal journal = some c) (hkept : ¬ Lost c.terminal) (n : Nat)
    (u : Session) (hu : s.after settings.sorted n = some u) : ¬ u.Loses settings.sorted Lost := by
  rw [run_of_session? hs, Option.map_eq_some_iff] at h
  obtain ⟨⟨ending, t⟩, ht, rfl⟩ := h
  exact Session.not_loses_of_runFor hclosed ht hkept hu

end Lost

/-! ## Runs -/

section Runs

variable {settings : Settings} {program : Program} {codes codes' : List Nat} {journal : Journal}
  {fuel : Nat} {c : Conclusion}

/-- What a run has not received of its input is still to come. -/
theorem pending_of_runOn (h : runOn codes fuel settings program journal = some c) :
    c.terminal.pending = codes.drop c.terminal.received.length := by
  have hinput : c.terminal.received ++ c.terminal.pending = codes :=
    terminal_of_run (Q := fun t => t.received ++ t.pending = codes) (Machine.closed_input codes) h
      rfl
  rw [← hinput, List.drop_left]

/-- The buffers over two inputs with the same beginning have the same input for a while. -/
theorem Terminal.continued_buffer {n : Nat} (h : codes'.take n = codes.take n)
    (policy : EndOfInput) :
    (buffer codes policy).Continued (codes.drop n) (codes'.drop n) (buffer codes' policy) := by
  refine ⟨codes.take n, (List.take_append_drop n codes).symm, ?_⟩
  rw [← h, List.take_append_drop]
  rfl

/-- **Input that is not read cannot influence a run.**  Take a run that comes to an end without
having asked for more characters than there are.  On any other input that begins with the characters
it has taken, the run comes to the same result and takes the same characters. -/
theorem runOn_unread (h : runOn codes fuel settings program journal = some c)
    (hwithin : ¬ c.terminal.Overrun)
    (hsame : codes'.take c.terminal.received.length = codes.take c.terminal.received.length) :
    ∃ c' r, runOn codes' fuel settings program journal = some c' ∧ c.result = some r ∧
      c'.result = some r ∧ c'.terminal.received = c.terminal.received ∧
      c.terminal.pending = codes.drop c.terminal.received.length ∧
      c'.terminal.pending = codes'.drop c.terminal.received.length ∧ ¬ c'.terminal.Overrun ∧
      c'.journal = c.journal := by
  have hpending := pending_of_runOn h
  generalize hpolicy : EndOfInput.ofStrict settings.options.strictInput = policy
  rw [runOn, hpolicy] at h ⊢
  cases hs : program.session? settings.sorted.options (.buffer codes policy) journal with
  | none =>
      -- nothing has been run and nothing read
      obtain ⟨e, journal', hrun⟩ := run_of_session?_eq_none hs
      cases h.symm.trans (hrun _ _)
      exact ⟨_, _, hrun _ _, rfl, rfl, rfl, hpending, rfl, List.not_mem_nil, rfl⟩
  | some s =>
      have hend : policy ≠ .interrupt := by
        rw [← hpolicy]
        exact EndOfInput.ofStrict_ne_interrupt _
      have hkept : ¬ c.terminal.Touched (codes.drop c.terminal.received.length) := by
        rw [Terminal.Touched, hpending]
        exact fun htouched => htouched.elim (Nat.lt_irrefl _) hwithin
      obtain ⟨c', r, r', hc', hr, hr', hresult, houtput, hterminal, hjournal⟩ :=
        results_of_run_alike (Terminal.simulation_continued _ _)
          (Terminal.continued_buffer hsame policy) hs
          (not_loses_of_run (Terminal.closed_touched _) hs h hkept) hend h
      obtain ⟨first, hfirst, hcontinued⟩ := hterminal
      have hnothing : first = [] := by
        rw [hpending] at hfirst
        exact List.self_eq_append_left.1 hfirst
      have hshown : c'.terminal.output = c.terminal.output := by
        rw [hcontinued]
        rfl
      have hequal : r = r' := by
        rw [hresult, ← hshown, ← houtput]
      subst hequal hnothing
      refine ⟨c', r, hc', hr, hr', ?_, hpending, ?_, ?_, hjournal.symm⟩
      all_goals rw [hcontinued]
      · rfl
      · rfl
      · exact hwithin

theorem runOn_unread_typing :
    ∃ c c' r, runOn [65, 66, 67, 68] 9 {} .typing ⟨.error, #[]⟩ = some c ∧
      runOn [65, 66, 67] 9 {} .typing ⟨.error, #[]⟩ = some c' ∧ c.result = some r ∧
      c'.result = some r ∧ c.terminal.received = [65, 66, 67] ∧
      c'.terminal.received = [65, 66, 67] ∧ c.terminal.pending = [68] ∧
      c'.terminal.pending = [] := by
  have hrun : runOn [65, 66, 67, 68] 9 {} .typing ⟨.error, #[]⟩ = some _ := rfl
  have hsame : [65, 66, 67].take 3 = [65, 66, 67, 68].take 3 := rfl
  obtain ⟨c', r, hrun', hr, hr', hreceived, hpending, hpending', -⟩ :=
    runOn_unread hrun (by decide) hsame
  exact ⟨_, c', r, hrun, hrun', hr, hr', rfl, hreceived, hpending, hpending'⟩

end Runs

end LittleComputer
