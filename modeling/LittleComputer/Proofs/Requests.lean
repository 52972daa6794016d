import LittleComputer.Proofs.Encoding
import LittleComputer.Proofs.Literals
import LittleComputer.Request

/-!
# Requests and what they ask for

A request goes through three gates: its image, the size of the image, and the keys of its initial
memory.

* `Service.Host.Standard` — texts in base 64 and keys are read as the standards say.
* `Request.Asks`, `Request.resolve_of_asks` — **what a request asks for is what it resolves to.**
* `Request.FirstFault`, `Request.exists_firstFault`, `Request.resolve_of_firstFault` — **the first
  fault decides** why there is nothing to run.
-/

namespace LittleComputer

/-! ## Reading texts -/

/-- The text of the characters with these codes.  What is no character's code comes out as the null
character, which stands for nothing in base 64 and in numerals. -/
def Text.ofCodes (codes : List Nat) : String := String.ofList (codes.map Char.ofNat)

theorem Text.ofCodes_codesOf (s : String) : ofCodes (Request.codesOf s) = s := by
  have hchars : (s.toList.map Char.toNat).map Char.ofNat = s.toList := by
    rw [List.map_map]
    exact (List.map_congr_left fun c _ => Char.ofNat_toNat c).trans (List.map_id s.toList)
  rw [ofCodes, Request.codesOf, hchars, String.ofList_toList]

/-- The host reads texts as the standards say. -/
structure Service.Host.Standard (host : Service.Host) : Prop where
  /-- Images are read in strict base 64. -/
  decode : ∀ codes, host.decode codes = Base64.decode (Text.ofCodes codes)
  /-- Keys are read as integer literals. -/
  integer? : ∀ codes, host.integer? codes = Text.literal? (Text.ofCodes codes)

/-- A host that reads texts like this. -/
def Service.Host.standard : Service.Host where
  decode codes := Base64.decode (Text.ofCodes codes)
  integer? codes := Text.literal? (Text.ofCodes codes)

theorem Service.Host.standard_standard : standard.Standard := ⟨fun _ => rfl, fun _ => rfl⟩

namespace Request

/-! ## What a request asks for -/

/-- The keys of initial memory, as a request writes them, with their values. -/
def Writes (fields : List (List Nat × Int)) (entries : List (Int × Int)) : Prop :=
  List.Forall₂ (fun field entry =>
    (∃ s, field.1 = codesOf s ∧ Text.Writes entry.1 s) ∧ field.2 = entry.2) fields entries

/-- The request asks for a run of these bytes on this input with these options.  Its image is not
too large, and the keys of its initial memory stand for different integers. -/
structure Asks (r : Request) (bytes : List Byte) (input : List Nat) (o : Options) : Prop where
  image : r.image = codesOf (Base64.encode bytes)
  fits : bytes.length ≤ 131074
  input : r.input = input
  startAddress : o.startAddress = r.asked.startAddress
  startAtOrigin : o.startAtOrigin = r.asked.startAtOrigin
  maxSteps : o.maxSteps = some r.asked.maxSteps
  strictInput : o.strictInput = r.asked.strictInput
  trace : o.trace = r.asked.trace
  watch : o.watch = r.asked.watch
  traceTerminal : o.traceTerminal = r.asked.traceTerminal
  initialMemory : Writes r.asked.initialMemory o.initialMemory.entries
  distinct : (o.initialMemory.entries.map Prod.fst).Nodup

variable {host : Service.Host} {r : Request} {a : Assignments}

/-- Distinct keys are taken as they come. -/
theorem assignments_of_writes (hhost : host.Standard) {fields : List (List Nat × Int)}
    {entries : List (Int × Int)} (h : Writes fields entries)
    (hdistinct : ((a.entries ++ entries).map Prod.fst).Nodup) :
    assignments host a fields = .ok ⟨a.entries ++ entries⟩ := by
  induction h generalizing a with
  | nil => rw [List.append_nil, assignments]
  | @cons field entry fields entries hfield _ ih =>
      obtain ⟨key, value⟩ := field
      obtain ⟨⟨s, hkey, hwrites⟩, hvalue⟩ := hfield
      dsimp only at hkey hvalue
      have hread : host.integer? key = some entry.1 := by
        rw [hhost.integer?, hkey, Text.ofCodes_codesOf, Text.literal?_of_writes hwrites]
      have hnew : entry.1 ∉ a.entries.map Prod.fst := by
        rw [List.map_append, List.nodup_append] at hdistinct
        exact fun hmem => hdistinct.2.2 entry.1 hmem entry.1 List.mem_cons_self rfl
      have happend : a.entries ++ entry :: entries = a.entries ++ [entry] ++ entries := by
        rw [List.append_assoc, List.singleton_append]
      rw [happend] at hdistinct ⊢
      rw [assignments, hread, hvalue]
      dsimp only
      rw [Assignments.insert_of_not_mem hnew]
      exact ih hdistinct

/-- The bytes of an image that can be read. -/
theorem imageBytes_of_decode {bytes : List Byte} (h : host.decode r.image = some bytes) :
    r.imageBytes host = if 131074 < bytes.length then .error .imageTooLarge else .ok bytes := by
  rw [imageBytes, h]
  rfl

theorem resolve_of_error {refusal : Refusal} (h : r.imageBytes host = .error refusal) :
    r.resolve host = .error refusal := by
  rw [resolve, h]
  rfl

/-- Once there is an image, all depends on the initial memory. -/
theorem resolve_of_ok {bytes : List Byte} (h : r.imageBytes host = .ok bytes) :
    r.resolve host = (assignments host {} r.asked.initialMemory).map fun initialMemory =>
      (bytes, toOptions r.asked initialMemory) := by
  rw [resolve, h]
  rfl

/-- All options are passed on. -/
theorem Asks.toOptions_eq {bytes : List Byte} {input : List Nat} {o : Options}
    (h : r.Asks bytes input o) : toOptions r.asked o.initialMemory = o := by
  obtain ⟨startAddress, startAtOrigin, maxSteps, strictInput, trace, watch, traceTerminal, _⟩ := o
  simp only [toOptions, ← h.startAddress, ← h.startAtOrigin, ← h.maxSteps, ← h.strictInput,
    ← h.trace, ← h.watch, ← h.traceTerminal]

/-- **What a request asks for is what it resolves to.** -/
theorem resolve_of_asks (hhost : host.Standard) {bytes : List Byte} {input : List Nat} {o : Options}
    (h : r.Asks bytes input o) : r.resolve host = .ok (bytes, o) := by
  have hdecode : host.decode r.image = some bytes := by
    rw [hhost.decode, h.image, Text.ofCodes_codesOf, Base64.decode_encode]
  have hbytes : r.imageBytes host = .ok bytes := by
    rw [imageBytes_of_decode hdecode, if_neg (Nat.not_lt_of_le h.fits)]
  have hmemory : assignments host {} r.asked.initialMemory = .ok o.initialMemory :=
    assignments_of_writes hhost h.initialMemory h.distinct
  rw [resolve_of_ok hbytes, hmemory, Except.map, h.toOptions_eq]

/-! ## Why a request is refused -/

/-- The image is no text in base 64. -/
def BadImage (r : Request) : Prop := ¬ Base64.WellFormed (Text.ofCodes r.image)

/-- The image stands for more bytes than there can be. -/
def TooLarge (r : Request) : Prop :=
  ∃ bytes, Base64.decode (Text.ofCodes r.image) = some bytes ∧ 131074 < bytes.length

/-- A key that is no integer literal. -/
def BadKey (key : List Nat) : Prop := Text.literal? (Text.ofCodes key) = none

instance (key : List Nat) : Decidable (BadKey key) :=
  inferInstanceAs (Decidable (Text.literal? (Text.ofCodes key) = none))

/-- `FirstFault r detail` : of the faults of the request, this is the first, and how it is told.
The image comes before its size, and that before the keys. -/
inductive FirstFault (r : Request) : List Nat → Prop where
  /-- The image is no base 64. -/
  | image (h : r.BadImage) : FirstFault r (codesOf "Image is not valid base64")
  /-- The image is too large. -/
  | size (h : ¬ r.BadImage) (hsize : r.TooLarge) :
    FirstFault r (codesOf "Image size exceeds limit of 131074 bytes")
  /-- Of the keys that are no literals, this is the first. -/
  | key {key : List Nat} {value : Int} (h : ¬ r.BadImage) (hsize : ¬ r.TooLarge)
    (hkey : r.asked.initialMemory.find? (fun field => BadKey field.1) = some (key, value)) :
    FirstFault r (codesOf "Invalid memory address key: " ++ key)

/-- A request with any of the three faults has a first one. -/
theorem exists_firstFault
    (h : r.BadImage ∨ r.TooLarge ∨ ∃ field ∈ r.asked.initialMemory, BadKey field.1) :
    ∃ detail, r.FirstFault detail := by
  by_cases himage : r.BadImage
  · exact ⟨_, .image himage⟩
  · by_cases hsize : r.TooLarge
    · exact ⟨_, .size himage hsize⟩
    · obtain hbad | hlarge | ⟨field, hmem, hbad⟩ := h
      · exact absurd hbad himage
      · exact absurd hlarge hsize
      · have hfound : (r.asked.initialMemory.find? fun field => BadKey field.1).isSome = true :=
          List.find?_isSome.2 ⟨field, hmem, decide_eq_true hbad⟩
        obtain ⟨⟨key, value⟩, hkey⟩ := Option.isSome_iff_exists.1 hfound
        exact ⟨_, .key himage hsize hkey⟩

/-- An image in base 64 has bytes. -/
theorem decode_of_not_badImage (hhost : host.Standard) (h : ¬ r.BadImage) :
    ∃ bytes, host.decode r.image = some bytes ∧
      Base64.decode (Text.ofCodes r.image) = some bytes := by
  obtain ⟨bytes, hbytes⟩ :=
    Option.isSome_iff_exists.1 ((Base64.isSome_decode_iff _).2 (Classical.not_not.1 h))
  exact ⟨bytes, (hhost.decode _).trans hbytes, hbytes⟩

/-- Keys are read up to the first that is no literal. -/
theorem assignments_of_find? (hhost : host.Standard) {fields : List (List Nat × Int)}
    {key : List Nat} {value : Int}
    (h : fields.find? (fun field => BadKey field.1) = some (key, value)) :
    assignments host a fields = .error (.badKey key) := by
  induction fields generalizing a with
  | nil => cases h
  | cons field rest ih =>
      obtain ⟨first, content⟩ := field
      rw [assignments]
      cases hread : host.integer? first with
      | none =>
          have hbad : BadKey first := (hhost.integer? first).symm.trans hread
          rw [List.find?_cons_of_pos (by simpa using hbad)] at h
          cases h
          rfl
      | some address =>
          have hgood : ¬ BadKey first := fun hbad => by
            cases hread.symm.trans ((hhost.integer? first).trans hbad)
          rw [List.find?_cons_of_neg (by simpa using hgood)] at h
          exact ih h

/-- **The first fault decides.** -/
theorem resolve_of_firstFault (hhost : host.Standard) {detail : List Nat}
    (h : r.FirstFault detail) :
    ∃ refusal : Refusal, r.resolve host = .error refusal ∧ refusal.detail = detail := by
  cases h with
  | image himage =>
      have hnone : host.decode r.image = none := by
        rw [hhost.decode, ← Option.not_isSome_iff_eq_none, Base64.isSome_decode_iff]
        exact himage
      exact ⟨.badImage, resolve_of_error (by rw [imageBytes, hnone]), rfl⟩
  | size himage hsize =>
      obtain ⟨bytes, hdecode, hbytes⟩ := decode_of_not_badImage hhost himage
      obtain ⟨bytes', hbytes', hlarge⟩ := hsize
      cases hbytes.symm.trans hbytes'
      have himage : r.imageBytes host = .error .imageTooLarge := by
        rw [imageBytes_of_decode hdecode, if_pos hlarge]
      exact ⟨.imageTooLarge, resolve_of_error himage, by decide +kernel⟩
  | @key key value himage hsize hkey =>
      obtain ⟨bytes, hdecode, hbytes⟩ := decode_of_not_badImage hhost himage
      have hfits : ¬ 131074 < bytes.length := fun hlarge => hsize ⟨bytes, hbytes, hlarge⟩
      have himage : r.imageBytes host = .ok bytes := by
        rw [imageBytes_of_decode hdecode, if_neg hfits]
      refine ⟨.badKey key, ?_, rfl⟩
      rw [resolve_of_ok himage, assignments_of_find? hhost hkey, Except.map]

end Request

end LittleComputer
