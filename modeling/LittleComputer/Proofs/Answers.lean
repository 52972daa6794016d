import LittleComputer.Proofs.PlainRuns
import LittleComputer.Proofs.Recording
import LittleComputer.Proofs.Requests
import LittleComputer.Service

/-!
# The service answers with results

What the service does with a request is to run what it asks for, and to write the result down.
Nothing depends on its choice of a journal, and nothing is run where the request has a fault.

* `Plain.Result.answered_eq` — an answer is the result as a document, with an error in any case.
* `Plain.runOn_journals` — how much is reported does not show in the result.
* `Service.handle_of_asks`, `Service.handle_of_firstFault` — what comes of a request.
* `Service.handle_agrees` — **the service agrees with the library**, and it refuses requests with
  a fault without running anything.
-/

namespace LittleComputer

/-- A result is answered as a document that says so if there is no error. -/
theorem Plain.Result.answered_eq (result : Plain.Result) :
    ∃ fields, result.document = .object fields ∧
      Service.answered result =
        ⟨200, .document (.object
          (fields ++ if result.error.isNone then [("error", .null)] else []))⟩ := by
  refine ⟨_, rfl, ?_⟩
  obtain ⟨output, steps, final, watch, trace, error⟩ := result
  cases error with
  | none => rw [Service.answered, Option.toList_none, List.map_nil, List.append_nil]; rfl
  | some report => rw [Service.answered, Option.toList_some, List.append_assoc]; rfl

/-- How much is reported does not show in the result of a run on a buffer. -/
theorem Plain.runOn_journals (codes : List Nat) (fuel : Nat) (settings : Settings)
    (program : Program) (journal journal' : Journal) :
    (Plain.runOn codes fuel settings program journal = none ∧
      Plain.runOn codes fuel settings program journal' = none) ∨
    ∃ c c' r, Plain.runOn codes fuel settings program journal = some c ∧
      Plain.runOn codes fuel settings program journal' = some c' ∧ c.outcome = .ok r ∧
      c'.outcome = .ok r := by
  obtain ⟨hnone, hnone₁⟩ | ⟨d, c, r, hd, hc, hr, hout⟩ :=
    rendered_runOn codes fuel settings program journal <;>
  obtain ⟨hnone', hnone₁'⟩ | ⟨d', c', r', hd', hc', hr', hout'⟩ :=
    rendered_runOn codes fuel settings program journal'
  · exact .inl ⟨hnone₁, hnone₁'⟩
  · obtain ⟨d, hd, -⟩ := result_of_journals hd' hr' journal
    cases hnone.symm.trans hd
  · obtain ⟨d', hd', -⟩ := result_of_journals hd hr journal'
    cases hnone'.symm.trans hd'
  · obtain ⟨d₁, hd₁, hr₁⟩ := result_of_journals hd hr journal'
    cases hd'.symm.trans hd₁
    cases hr'.symm.trans hr₁
    exact .inr ⟨c, c', r.plain, hc, hc', hout, hout'⟩

namespace Service

variable {host : Host} {r : Request} {bytes : List Byte} {input : List Nat} {o : Options}

/-- **A request is answered with the result of the run** that it asks for, and not at all if the run
does not end. -/
theorem handle_of_asks (hhost : host.Standard) (h : r.Asks bytes input o) (fuel : Nat)
    (journal : Journal) :
    (Plain.runOn input fuel { options := o } (.bytes bytes) journal = none ∧
      handle fuel host r = none) ∨
    ∃ c result, Plain.runOn input fuel { options := o } (.bytes bytes) journal = some c ∧
      c.outcome = .ok result ∧ handle fuel host r = some (.ok (answered result)) := by
  have hrun : handle fuel host r =
      (Plain.runOn input fuel { options := o } (.bytes bytes) ⟨.warning, #[]⟩).map fun c =>
        c.outcome.map answered := by
    rw [handle, Request.resolve_of_asks hhost h, h.input]
  rw [hrun]
  obtain ⟨hnone, hnone'⟩ | ⟨c, c', result, hc, hc', hresult, hresult'⟩ :=
    Plain.runOn_journals input fuel { options := o } (.bytes bytes) journal ⟨.warning, #[]⟩
  · rw [hnone']
    exact .inl ⟨hnone, rfl⟩
  · rw [hc', Option.map_some, hresult']
    exact .inr ⟨c, result, hc, hresult, rfl⟩

/-- A request with a fault is answered with the first one, and there is nothing to run. -/
theorem handle_of_firstFault (hhost : host.Standard) {detail : List Nat}
    (h : r.FirstFault detail) :
    (∀ asked, r.resolve host ≠ .ok asked) ∧
      ∀ fuel, handle fuel host r = some (.ok ⟨400, .detail detail⟩) := by
  obtain ⟨refusal, hresolve, rfl⟩ := Request.resolve_of_firstFault hhost h
  constructor
  · rw [hresolve]
    exact fun _ => nofun
  · intro fuel
    rw [handle, hresolve]
    rfl

/-- **The service agrees with the library**, where images are read in strict base 64 and keys as
integer literals.

1. If a request asks for a run of bytes on an input with options, it is answered with the result of
   that run, whatever fuel and journal the run has; and not at all as long as the run has not ended.
2. If its image is no base 64 or too large or one of its keys is no literal, there is a first fault.
   Then there is nothing to run: with no fuel at all the answer tells of this fault. -/
theorem handle_agrees (hhost : host.Standard) (r : Request) :
    (∀ bytes input o, r.Asks bytes input o → ∀ fuel journal,
      (Plain.runOn input fuel { options := o } (.bytes bytes) journal = none ∧
        handle fuel host r = none) ∨
      ∃ c result fields,
        Plain.runOn input fuel { options := o } (.bytes bytes) journal = some c ∧
        c.outcome = .ok result ∧ result.document = .object fields ∧
        handle fuel host r = some (.ok ⟨200, .document (.object
          (fields ++ if result.error.isNone then [("error", .null)] else []))⟩)) ∧
    ((r.BadImage ∨ r.TooLarge ∨ ∃ field ∈ r.asked.initialMemory, Request.BadKey field.1) →
      ∃ detail, r.FirstFault detail) ∧
    ∀ detail, r.FirstFault detail → (∀ asked, r.resolve host ≠ .ok asked) ∧
      ∀ fuel, handle fuel host r = some (.ok ⟨400, .detail detail⟩) := by
  refine ⟨fun bytes input o hasks fuel journal => ?_, Request.exists_firstFault,
    fun detail => handle_of_firstFault hhost⟩
  obtain hnone | ⟨c, result, hc, hresult, hanswer⟩ := handle_of_asks hhost hasks fuel journal
  · exact .inl hnone
  · obtain ⟨fields, hfields, hanswered⟩ := result.answered_eq
    rw [hanswered] at hanswer
    exact .inr ⟨c, result, fields, hc, hresult, hfields, hanswer⟩

end Service

/-- The image of a program that halts at once, with a cell behind it. -/
def Request.haltingImage : List Byte := [0x30, 0x00, 0xF0, 0x25, 0x00, 0x00]

/-- A request to run an image with some initial memory. -/
def Request.brief (image : String) (initialMemory : List (String × Int)) : Request where
  image := codesOf image
  options := some
    { (default : RequestOptions) with
      maxSteps := 9
      maxSteps_bounds := by decide
      initialMemory := initialMemory.map fun field => (codesOf field.1, field.2) }

/-- Options for the run that it asks for. -/
def Options.brief (entries : List (Int × Int)) : Options :=
  { maxSteps := some 9, initialMemory := ⟨entries⟩ }

/-- Keys in decimal and in hexadecimal, one of them negative and one with a needless zero. -/
theorem Request.asks_brief : (brief "MADwJQAA" [("-1", 5), ("0x0Af", 7)]).Asks haltingImage []
    (.brief [(-1, 5), (175, 7)]) where
  image := show codesOf "MADwJQAA" = codesOf (Base64.encode haltingImage) by decide +kernel
  fits := by decide
  input := rfl
  startAddress := rfl
  startAtOrigin := rfl
  maxSteps := rfl
  strictInput := rfl
  trace := rfl
  watch := rfl
  traceTerminal := rfl
  initialMemory := by
    have hhex : Text.Writes 175 (String.ofList (Text.signOf 175 ++ ['0', 'x', '0', 'A', 'f'])) :=
      .hex (k := 1) (by decide +kernel)
    exact .cons ⟨⟨_, rfl, .decimal⟩, rfl⟩ (.cons ⟨⟨_, rfl, hhex⟩, rfl⟩ .nil)
  distinct := by decide

/-- Where one of the keys is no integer, this is the first fault. -/
theorem Request.firstFault_brief : (brief "MADwJQAA" [("-1", 5), ("0x", 7)]).FirstFault
    (codesOf "Invalid memory address key: " ++ codesOf "0x") := by
  have hdecode : Base64.decode (Text.ofCodes (codesOf "MADwJQAA")) = some haltingImage := by
    decide +kernel
  have hkey : (brief "MADwJQAA" [("-1", 5), ("0x", 7)]).asked.initialMemory.find?
      (fun field => BadKey field.1) = some (codesOf "0x", 7) := by decide +kernel
  refine .key (fun hbad => hbad ?_) ?_ hkey
  · refine (Base64.isSome_decode_iff _).1 ?_
    show (Base64.decode (Text.ofCodes (codesOf "MADwJQAA"))).isSome = true
    rw [hdecode]
    rfl
  · rintro ⟨bytes, hbytes, hlarge⟩
    cases hdecode.symm.trans hbytes
    exact absurd hlarge (by decide)

theorem Service.handle_agrees_halting :
    ∃ c result fields,
      Plain.runOn [] 9 { options := .brief [(-1, 5), (175, 7)] } (.bytes Request.haltingImage)
        ⟨.debug, #[]⟩ = some c ∧ c.outcome = .ok result ∧ result.steps = 1 ∧
      result.document = .object fields ∧
      handle 9 .standard (Request.brief "MADwJQAA" [("-1", 5), ("0x0Af", 7)]) =
        some (.ok ⟨200, .document (.object (fields ++ [("error", .null)]))⟩) ∧
      handle 0 .standard (Request.brief "MADwJQAA" [("-1", 5), ("0x", 7)]) =
        some (.ok ⟨400, .detail
          (Request.codesOf "Invalid memory address key: " ++ Request.codesOf "0x")⟩) := by
  obtain ⟨hanswers, -, -⟩ := handle_agrees Host.standard_standard
    (Request.brief "MADwJQAA" [("-1", 5), ("0x0Af", 7)])
  obtain ⟨-, -, hrefusals⟩ := handle_agrees Host.standard_standard
    (Request.brief "MADwJQAA" [("-1", 5), ("0x", 7)])
  have hrefused := (hrefusals _ Request.firstFault_brief).2 0
  obtain ⟨d, r, hd, hr, hsteps, herror⟩ : ∃ d r,
      runOn [] 9 { options := .brief [(-1, 5), (175, 7)] } (.bytes Request.haltingImage)
        ⟨.debug, #[]⟩ = some d ∧ d.result = some r ∧ r.steps = 1 ∧ r.error = none :=
    ⟨_, _, rfl, rfl, rfl, rfl⟩
  obtain ⟨hnone, -⟩ | ⟨d', c, r', hd', hc, hr', hout⟩ := rendered_runOn [] 9
    { options := .brief [(-1, 5), (175, 7)] } (.bytes Request.haltingImage) ⟨.debug, #[]⟩
  · cases hd.symm.trans hnone
  · cases hd.symm.trans hd'
    cases hr.symm.trans hr'
    obtain ⟨hnone, -⟩ | ⟨c', result, fields, hc', hresult, hfields, hanswer⟩ :=
      hanswers _ _ _ Request.asks_brief 9 ⟨.debug, #[]⟩
    · cases hc.symm.trans hnone
    · cases hc.symm.trans hc'
      cases hout.symm.trans hresult
      have hnone : r.plain.error.isNone = true := congrArg Option.isNone herror
      rw [if_pos hnone] at hanswer
      exact ⟨c, r.plain, fields, hc, hout, hsteps, hfields, hanswer, hrefused⟩

end LittleComputer
