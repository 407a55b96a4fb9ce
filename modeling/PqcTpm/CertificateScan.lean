import PqcTpm.Asn1Contexts

/-!
# The scan of a partial certificate

`TPM2_CertifyX509` goes over the elements of the certificate on a context and notes where each one lies in two tables
of fixed size; the extensions are then searched on contexts of their own. What is written, read and accepted is
kept beside the outcome.
-/
namespace PqcTpm
open ByteCodec TracedReads Traced

/-- What happens in the scan, in order. -/
inductive ScanEvent
  /-- `ASN1NextTag` has given an element. -/
  | element
  /-- The size of the context was set to -1. -/
  | parseError
  /-- `partial[i]` is written. -/
  | sequence (i : Nat)
  /-- `certTBS[i]` is written. -/
  | certTbs (i : Int)
  deriving DecidableEq

/-- `stringRef`; no place is `NULL`. -/
structure StringRef where
  buf : Option Int := none
  len : Int := 0

def ScanEvent.ofTag (length : Int) : ScanEvent := if length < 0 then .parseError else .element

namespace Asn1Context

/-- How a search for an extension ends, with the context of the search. -/
inductive Found
  | found (ctx : Asn1Context)
  | absent (ctx : Asn1Context)
  | error (ctx : Asn1Context)

variable (m : Int → UInt8)

/-- The loop of `X509FindExtensionByOID`; `none` when it has not come to its end. -/
def findLoop (oid : Bytes) : Nat → Asn1Context → Traced (Option Found × List ScanEvent)
  | 0, _ => pure (none, [])
  | fuel + 1, c =>
      if c.offset < c.size then do
        let (length, c) ← c.nextTag m
        if length < 0 then pure (some (.error c), [.parseError])
        else if c.tag ≠ Asn1.constructedSequence then pure (some (.error c), [.element, .parseError])
        else do
          -- the octets are compared only where the element could hold them
          let octets ← readBlock m (c.buffer + c.offset) (if oid.length ≤ length then oid.length else 0)
          if oid.length ≤ length ∧ octets = oid then
            pure (some (.found { c with buffer := c.buffer + c.offset, offset := 0, size := length }), [.element])
          else do
            let (r, events) ← findLoop oid fuel (c.advance length)
            pure (r, .element :: events)
      else if c.offset = c.size then pure (some (.absent c), [])
      else pure (some (.error c), [.parseError])

/-- `X509FindExtensionByOID` with a context of its own for the search: the result, the context that is searched and
the other one. -/
def findExtensionByOid (oid : Bytes) (fuel : Nat) (ctxIn : Asn1Context) :
    Traced (Option (Bool × Asn1Context × Asn1Context) × List ScanEvent) := do
  let (r, events) ← findLoop m oid fuel ctxIn
  let out := r.map fun
    | .found ctx => (true, ctxIn, ctx)
    | .absent ctx => (false, ctxIn, ctx)
    | .error ctx => (false, ctxIn.failed, ctx.failed)
  pure (out, events)

/-- `X509GetExtensionBits`. -/
def getExtensionBits : Nat → Asn1Context → Traced (Option (BitString × Asn1Context) × List ScanEvent)
  | 0, _ => pure (none, [])
  | fuel + 1, c => do
      let (length, c) ← c.nextTag m
      if 0 < length ∧ c.offset < c.size then
        if c.tag = Asn1.octetString then do
          let (bits, c) ← c.getBitStringValue m
          pure (some (bits, c), [.element, if bits = .fails then .parseError else .element])
        else do
          let (r, events) ← getExtensionBits fuel (c.advance length)
          pure (r, .element :: events)
      else pure (some (.fails, c.failed), if length < 0 then [.parseError] else [.element, .parseError])

/-- The bits of an extension, if it is there and has some, and the contexts. -/
def extensionBits (oid : Bytes) (fuel : Nat) (c : Asn1Context) :
    Traced (Option (Option BitString × Asn1Context × Asn1Context) × List ScanEvent) := do
  let (r, events) ← c.findExtensionByOid m oid fuel
  match r with
  | none => pure (none, events)
  | some (false, c, ctx) => pure (some (none, c, ctx), events)
  | some (true, c, ctx) => do
      let (b, events') ← ctx.getExtensionBits m fuel
      pure (b.map fun p => (if p.1 = .fails then none else some p.1, c, p.2), events ++ events')

end Asn1Context

/-- The attributes of the object in the certificate; `none` to go on. -/
def objectVerdict (a : TpmaObject) (bits : Option Asn1Context.BitString) (ctx : Asn1Context) :
    Option (Except Fault Unit) :=
  match bits with
  | some (.value v) => if v = a.toWord then none else some (.error (.of .attributes))
  | some _ => some (.error .overrun)
  | none => if ctx.size < 0 then some (.error (.of .value)) else none

/-- The key usage, which has to be there. -/
def usageVerdict (a : TpmaObject) : Option Asn1Context.BitString → Except Fault Unit
  | some (.value v) => Asn1.keyUsageChecks v a
  | some _ => .error .overrun
  | none => .error (.of .value)

section
variable (m : Int → UInt8) (fuel : Nat)

/-- `X509ProcessExtensions`. -/
def x509ProcessExtensions (a : TpmaObject) (extension : StringRef) :
    Traced (Option (Except Fault Unit) × List ScanEvent) :=
  match extension.buf.bind (Asn1Context.asn1UnmarshalContextInitialize extension.len) with
  | none => pure (some (.error (.of .value)), [])
  | some c => do
      let (outer, c) ← c.nextTag m
      if outer < 0 ∨ c.tag ≠ Asn1.x509Extensions then pure (some (.error (.of .value)), [.ofTag outer])
      else do
        let (inner, c) ← c.nextTag m
        if inner < 0 ∨ c.tag ≠ Asn1.constructedSequence then
          pure (some (.error (.of .value)), [.element, .ofTag inner])
        else do
          let (object, events) ← c.extensionBits m Asn1.oidTcgTpmaObject fuel
          match object with
          | none => pure (none, .element :: .element :: events)
          | some (bits, c, ctx) =>
              match objectVerdict a bits ctx with
              | some r => pure (some r, .element :: .element :: events)
              | none => do
                  let (usage, events') ← c.extensionBits m Asn1.oidKeyUsageExtension fuel
                  pure (usage.map fun p => usageVerdict a p.1, .element :: .element :: (events ++ events'))

/-- The tables and the context of the scan; `certTBS` is where its elements are noted before they are put in place. -/
structure CertificateScan where
  ctx : Asn1Context
  sequences : Nat → StringRef := fun _ => {}
  countOfSequences : Nat := 0
  certTbs : Int → StringRef := fun _ => {}

/-- `ALLOWED_SEQUENCES`, `SUBJECT_KEY_REF`, `EXTENSIONS_REF` and `REF_COUNT`. -/
def allowedSequences : Nat := 4
def subjectKeyRef : Int := 6
def extensionsRef : Int := 8
def refCount : Int := 9

/-- How the loop over the elements ends. -/
inductive LoopEnd
  | running
  | left
  | refused
  deriving DecidableEq

/-- The loop over the elements of the outermost sequence. -/
def scanLoop : Nat → CertificateScan → Traced (LoopEnd × CertificateScan × List ScanEvent)
  | 0, s => pure (.running, s, [])
  | fuel + 1, s =>
      if s.ctx.offset < s.ctx.size then do
        let (length, ctx) ← s.ctx.nextTag m
        let found : StringRef := ⟨some (ctx.buffer + s.ctx.offset), ctx.offset + length - s.ctx.offset⟩
        if length < 0 then pure (.left, { s with ctx }, [.parseError])
        else if ctx.tag = Asn1.constructedSequence then do
          let i := s.countOfSequences
          let s := { s with
            ctx := ctx.advance length
            sequences := Function.update s.sequences i found
            countOfSequences := i + 1 }
          if allowedSequences < s.countOfSequences then pure (.left, s, [.element, .sequence i])
          else do
            let (r, s, events) ← scanLoop fuel s
            pure (r, s, .element :: .sequence i :: events)
        else if ctx.tag = Asn1.x509Extensions then
          if (s.certTbs extensionsRef).len ≠ 0 then pure (.refused, { s with ctx }, [.element])
          else do
            let s := { s with
              ctx := ctx.advance length
              certTbs := Function.update s.certTbs extensionsRef found }
            let (r, s, events) ← scanLoop fuel s
            pure (r, s, .element :: .certTbs extensionsRef :: events)
        else pure (.refused, { s with ctx }, [.element])
      else pure (.left, s, [])

/-- The sequences, last one first, in the places before the key. -/
def placeSequences (s : CertificateScan) : List ScanEvent :=
  (List.range s.countOfSequences).map fun i : Nat => .certTbs (subjectKeyRef - (i : Int))

/-- What follows the loop: the elements are counted and put in place, and the extensions are processed. `canIdentify`
says whether the TPM can name the algorithm of the signature. -/
def finishScan (canIdentify : Bool) (a : TpmaObject) (r : LoopEnd) (s : CertificateScan) :
    Traced (Option (Except Fault Unit) × List ScanEvent) :=
  match r with
  | .running => pure (none, [])
  | .refused => pure (some (.error (.at .value 0x340)), [])
  | .left =>
      if s.ctx.offset ≠ s.ctx.size ∨ s.countOfSequences < 3 ∨ 4 < s.countOfSequences ∨
          (s.certTbs extensionsRef).buf = none then
        pure (some (.error (.at .value 0x340)), [])
      else if s.countOfSequences = 3 ∧ canIdentify = false then
        pure (some (.error (.at .scheme 0x100)), placeSequences s)
      else do
        let (verdict, events) ← x509ProcessExtensions m fuel a (s.certTbs extensionsRef)
        let located := verdict.map fun
          | .error (.rc rc) => .error (.rc { rc with loc := if rc.code = .attributes then 0x200 else 0x340 })
          | r => r
        pure (located, placeSequences s ++ events)

/-- `TPM2_CertifyX509` from the partial certificate to its extensions. -/
def scanCertificate (size buffer : Int) (canIdentify : Bool) (a : TpmaObject) :
    Traced (Option (Except Fault Unit) × List ScanEvent) :=
  match Asn1Context.asn1UnmarshalContextInitialize size buffer with
  | none => pure (some (.error (.at .value 0x340)), [])
  | some ctx => do
      let (length, ctx) ← ctx.nextTag m
      if ctx.tag ≠ Asn1.constructedSequence ∨ ctx.offset + length ≠ size then
        pure (some (.error (.at .size 0x340)), [.ofTag length])
      else do
        let (r, s, events) ← scanLoop m fuel { ctx }
        let (verdict, tail) ← finishScan m fuel canIdentify a r s
        pure (verdict, .ofTag length :: (events ++ tail))

end

/-! ## Tags -/

namespace Asn1Context
variable {m : Int → UInt8} {c : Asn1Context}

theorem checkSize_offset (n : Int) : (c.checkSize n).2.offset = c.offset := by
  unfold checkSize
  split <;> rfl

theorem longLength_offset (first : UInt8) (h : c.offset ≤ c.size) :
    c.offset ≤ (c.longLength m first).value.2.offset ∧ (c.longLength m first).value.2.offset ≤ c.size := by
  unfold longLength
  split
  · exact ⟨Int.le_refl _, h⟩
  rename_i hfit
  rw [not_not] at hfit
  split
  · rename_i htwo
    subst htwo
    have hcount : (((0x82 : UInt8).toNat % 128 : Nat) : Int) = 2 := by decide
    rw [hcount] at hfit
    rw [nextOctet_value]
    dsimp only
    split
    · rw [nextOctet_value, value_pure, checkSize_offset]
      simp only [advance]
      omega
    · simp only [value_pure, failed, advance]
      omega
  split
  · rename_i hone
    subst hone
    have hcount : (((0x81 : UInt8).toNat % 128 : Nat) : Int) = 1 := by decide
    rw [hcount] at hfit
    rw [nextOctet_value, value_pure, checkSize_offset]
    simp only [advance]
    omega
  · exact ⟨Int.le_refl _, h⟩

theorem decodeLength_offset (h : c.offset ≤ c.size) :
    c.offset ≤ (c.decodeLength m).value.2.offset ∧ (c.decodeLength m).value.2.offset ≤ c.size := by
  unfold decodeLength
  split
  · rw [nextOctet_value]
    dsimp only
    split
    · rw [value_pure, checkSize_offset]
      simp only [advance]
      omega
    · obtain ⟨h₁, h₂⟩ := longLength_offset (m := m) (c := c.advance 1) (m (c.buffer + c.offset)) (by
        simp only [advance]
        omega)
      simp only [advance] at h₁ h₂ ⊢
      omega
  · exact ⟨Int.le_refl _, h⟩

theorem nextTag_offset (h : c.offset ≤ c.size) :
    c.offset ≤ (c.nextTag m).value.2.offset ∧ (c.nextTag m).value.2.offset ≤ c.size := by
  unfold nextTag
  split
  · rw [nextOctet_value]
    dsimp only
    split
    · simp only [value_pure, failed, advance]
      omega
    · obtain ⟨h₁, h₂⟩ := decodeLength_offset (m := m) (c := { c.advance 1 with tag := m (c.buffer + c.offset) }) (by
        simp only [advance]
        omega)
      simp only [advance] at h₁ h₂ ⊢
      omega
  · exact ⟨Int.le_refl _, h⟩

theorem nextTag_cases (m : Int → UInt8) {c : Asn1Context} (h : c.offset ≤ c.size) :
    (∃ ctx, Asn1.nextTag (c.left m) = none ∧ (c.nextTag m).value = (-1, ctx) ∧ ctx.size = -1 ∧
        c.offset ≤ ctx.offset ∧ ctx.offset ≤ c.size) ∨
      ∃ tag, ∃ n k : Nat, Asn1.nextTag (c.left m) = some (tag, n, (c.left m).drop k) ∧
        (c.nextTag m).value = ((n : Int), ⟨c.buffer, c.size, c.offset + k, tag⟩) ∧ 0 < k ∧ c.offset + k + n ≤ c.size := by
  obtain ⟨htags, -⟩ := nextTag_tags (m := m) (c := c)
  have hlen := left_length m c
  cases hnext : Asn1.nextTag (c.left m) with
  | none =>
      rw [hnext] at htags
      exact .inl ⟨(c.nextTag m).value.2, rfl, Prod.ext htags.1 rfl, htags.2, nextTag_offset h⟩
  | some p =>
      obtain ⟨tag, n, rest⟩ := p
      rw [hnext] at htags
      obtain ⟨htag, hvalue, hn, k, hk, rfl, hout⟩ := htags
      obtain ⟨-, hlt⟩ := nextTag_le hnext
      rw [List.length_drop] at hn hlt
      refine .inr ⟨tag, n, k, rfl, Prod.ext hvalue ?_, by omega, by omega⟩
      rw [htag] at hout
      exact hout

end Asn1Context

/-! ## Searches -/

/-- Elements one after the other, and a parse error at the end if there was one. -/
inductive Parses : Bool → List ScanEvent → Prop
  | nil : Parses false []
  | error : Parses true [.parseError]
  | element {failed : Bool} {events : List ScanEvent} : Parses failed events → Parses failed (.element :: events)

namespace Parses

theorem append {failed : Bool} {xs ys : List ScanEvent} (hxs : Parses false xs) (hys : Parses failed ys) :
    Parses failed (xs ++ ys) := by
  generalize hfalse : false = b at hxs
  induction hxs with
  | nil => exact hys
  | error => cases hfalse
  | element _ ih => exact (ih hfalse).element

theorem ofTag (length : Int) : ∃ failed, Parses failed [.ofTag length] := by
  unfold ScanEvent.ofTag
  split
  · exact ⟨true, .error⟩
  · exact ⟨false, .element .nil⟩

end Parses

namespace Asn1Context
variable {m : Int → UInt8} {c : Asn1Context}

/-- The other context lies in this one. -/
structure Inside (c ctx : Asn1Context) : Prop where
  start : c.buffer + c.offset ≤ ctx.buffer + ctx.offset
  bound : ctx.buffer + ctx.size ≤ c.buffer + c.size
  nonneg : 0 ≤ ctx.offset
  le : ctx.offset ≤ ctx.size

theorem Inside.reads {ctx : Asn1Context} {α : Type} {t : Traced α} (h : c.Inside ctx) (ht : ctx.ReadsLeft t) :
    c.ReadsLeft t :=
  ht.mono h.start h.bound

theorem Inside.trans {ctx ctx' : Asn1Context} (h : c.Inside ctx) (h' : ctx.Inside ctx') : c.Inside ctx' :=
  ⟨h.start.trans h'.start, h'.bound.trans h.bound, h'.nonneg, h'.le⟩

theorem inside_later {tag : UInt8} {offset : Int} (hoffset : 0 ≤ c.offset) (hlater : c.offset ≤ offset)
    (h : offset ≤ c.size) : c.Inside ⟨c.buffer, c.size, offset, tag⟩ :=
  ⟨Int.add_le_add_left hlater _, Int.le_refl _, hoffset.trans hlater, h⟩

/-- The outcome of a search: it has come to its end, and what it has found lies in the context. -/
def Searches (c : Asn1Context) : Option Found × List ScanEvent → Prop
  | (none, _) => False
  | (some (.found ctx), events) => Parses false events ∧ c.Inside ctx
  | (some (.absent ctx), events) => Parses false events ∧ 0 ≤ ctx.size
  | (some (.error _), events) => Parses true events

theorem Searches.later {c' : Asn1Context} {r : Option Found} {events : List ScanEvent} (h : c.Inside c')
    (hs : c'.Searches (r, events)) : c.Searches (r, .element :: events) := by
  match r, hs with
  | some (.found _), hs => exact ⟨hs.1.element, h.trans hs.2⟩
  | some (.absent _), hs => exact ⟨hs.1.element, hs.2⟩
  | some (.error _), hs => exact hs.element

theorem findLoop_searches (oid : Bytes) {fuel : Nat} (hoffset : 0 ≤ c.offset) (h : c.offset ≤ c.size)
    (hfuel : (c.size - c.offset).toNat < fuel) :
    c.Searches (findLoop m oid fuel c).value ∧ c.ReadsLeft (findLoop m oid fuel c) := by
  induction fuel generalizing c with
  | zero => exact absurd hfuel (Nat.not_lt_zero _)
  | succ fuel ih =>
      rw [findLoop]
      by_cases hlt : c.offset < c.size
      · obtain ⟨-, hreads⟩ := nextTag_tags (m := m) (c := c)
        simp only [if_pos hlt, value_bind, ReadsLeft, within_bind]
        rcases nextTag_cases m h with ⟨ctx, -, hvalue, -⟩ | ⟨tag, n, k, -, hvalue, hk, hfit⟩
        · rw [hvalue]
          exact ⟨.error, hreads, within_pure _⟩
        · have hinside : c.Inside ⟨c.buffer, c.size, c.offset + k + n, tag⟩ :=
            inside_later hoffset (by omega) hfit
          rw [hvalue]
          dsimp only
          rw [if_neg (by omega)]
          by_cases htag : tag ≠ Asn1.constructedSequence
          · rw [if_pos htag]
            exact ⟨.element .error, hreads, within_pure _⟩
          rw [if_neg htag]
          have hblock : (readBlock m (c.buffer + (c.offset + k)) (if (oid.length : Int) ≤ n then oid.length else 0)).Within
              (c.buffer + c.offset) (c.buffer + c.size) := by
            refine within_readBlock m (by omega) ?_
            split <;> omega
          generalize readBlock m _ _ = octets at hblock ⊢
          simp only [value_bind, within_bind]
          by_cases hsame : (oid.length : Int) ≤ n ∧ octets.value = oid
          · simp only [if_pos hsame]
            have hinner : c.Inside ⟨c.buffer + (c.offset + k), n, 0, tag⟩ :=
              ⟨by dsimp only; omega, by dsimp only; omega, Int.le_refl _, by dsimp only; omega⟩
            exact ⟨⟨.element .nil, hinner⟩, hreads, hblock, within_pure _⟩
          · simp only [if_neg hsame]
            obtain ⟨hs, hr⟩ := ih (c := ⟨c.buffer, c.size, c.offset + k + n, tag⟩) hinside.nonneg hinside.le (by
              dsimp only
              omega)
            exact ⟨Searches.later hinside hs, hreads, hblock, within_bind.mpr ⟨hinside.reads hr, within_pure _⟩⟩
      · rw [if_neg hlt, if_pos (by omega)]
        exact ⟨⟨.nil, by omega⟩, within_pure _⟩

/-- The bits of an extension: after a failure the context is unusable, and nothing is accepted. -/
theorem getExtensionBits_parses (fuel : Nat) (hoffset : 0 ≤ c.offset) (h : c.offset ≤ c.size)
    (hfuel : (c.size - c.offset).toNat < fuel) :
    (∃ bits ctx events, (c.getExtensionBits m fuel).value = (some (bits, ctx), events) ∧
        (bits = .fails → ctx.size = -1) ∧ Parses (decide (bits = .fails)) events) ∧
      c.ReadsLeft (c.getExtensionBits m fuel) := by
  induction fuel generalizing c with
  | zero => exact absurd hfuel (Nat.not_lt_zero _)
  | succ fuel ih =>
      obtain ⟨-, hreads⟩ := nextTag_tags (m := m) (c := c)
      rw [getExtensionBits]
      simp only [value_bind, ReadsLeft, within_bind]
      rcases nextTag_cases m h with ⟨ctx, -, hvalue, -⟩ | ⟨tag, n, k, -, hvalue, hk, hfit⟩
      · rw [hvalue]
        exact ⟨⟨.fails, ctx.failed, [.parseError], rfl, fun _ => rfl, .error⟩, hreads, within_pure _⟩
      rw [hvalue]
      dsimp only
      by_cases hmore : 0 < (n : Int) ∧ c.offset + k < c.size
      · have hhere : c.Inside ⟨c.buffer, c.size, c.offset + k, tag⟩ := inside_later hoffset (by omega) (by omega)
        simp only [if_pos hmore]
        by_cases htag : tag = Asn1.octetString
        · obtain ⟨-, hfails, hr⟩ := getBitStringValue_agrees (m := m) (c := ⟨c.buffer, c.size, c.offset + k, tag⟩)
          simp only [if_pos htag, value_bind, within_bind, value_pure]
          refine ⟨⟨_, _, _, rfl, hfails, ?_⟩, hreads, hhere.reads hr, within_pure _⟩
          split
          · rename_i hbits
            rw [decide_eq_true hbits]
            exact .element .error
          · rename_i hbits
            rw [decide_eq_false hbits]
            exact .element (.element .nil)
        · have hlater : c.Inside ⟨c.buffer, c.size, c.offset + k + n, tag⟩ := inside_later hoffset (by omega) hfit
          obtain ⟨⟨bits, ctx, events, hout, hfails, hparses⟩, hr⟩ :=
            ih (c := ⟨c.buffer, c.size, c.offset + k + n, tag⟩) hlater.nonneg hlater.le (by
              dsimp only
              omega)
          simp only [if_neg htag, value_bind, within_bind, value_pure, advance]
          rw [hout]
          exact ⟨⟨bits, ctx, _, rfl, hfails, hparses.element⟩, hreads, hlater.reads hr, within_pure _⟩
      · simp only [if_neg hmore, value_pure, within_pure, and_true]
        refine ⟨⟨.fails, _, _, rfl, fun _ => rfl, ?_⟩, hreads⟩
        rw [if_neg (by omega)]
        exact .element .error

/-- An extension and its bits; the search goes on from the same context only where there was no parse error. -/
theorem extensionBits_parses (oid : Bytes) (fuel : Nat) (hoffset : 0 ≤ c.offset) (h : c.offset ≤ c.size)
    (hfuel : (c.size - c.offset).toNat < fuel) :
    (∃ bits c' ctx events failed, (c.extensionBits m oid fuel).value = (some (bits, c', ctx), events) ∧
        Parses failed events ∧ (bits.isSome ∨ 0 ≤ ctx.size → c' = c ∧ failed = false)) ∧
      c.ReadsLeft (c.extensionBits m oid fuel) := by
  obtain ⟨hsearch, hreads⟩ := findLoop_searches (m := m) oid hoffset h hfuel
  unfold extensionBits findExtensionByOid
  simp only [value_bind, ReadsLeft, within_bind, value_pure, within_pure, and_true]
  cases hloop : (findLoop m oid fuel c).value with
  | mk r events =>
      rw [hloop] at hsearch
      rcases r with _ | (ctx | ctx | ctx)
      · exact hsearch.elim
      · obtain ⟨hparses, hinside⟩ := hsearch
        have hstart := hinside.start
        have hbound := hinside.bound
        obtain ⟨⟨bits, ctx', events', hout, hfails, hparses'⟩, hr⟩ :=
          getExtensionBits_parses (m := m) fuel hinside.nonneg hinside.le (by omega)
        simp only [Option.map_some, value_bind, within_bind, value_pure, within_pure, and_true, hout]
        refine ⟨⟨_, c, ctx', _, _, rfl, hparses.append hparses', ?_⟩, hreads, hinside.reads hr⟩
        by_cases hbits : bits = .fails
        · rw [if_pos hbits, hfails hbits]
          rintro (hsome | hsize)
          · cases hsome
          · exact absurd hsize (by decide)
        · exact fun _ => ⟨rfl, decide_eq_false hbits⟩
      · exact ⟨⟨none, c, ctx, events, false, rfl, hsearch.1, fun _ => ⟨rfl, rfl⟩⟩, hreads, within_pure _⟩
      · refine ⟨⟨none, c.failed, ctx.failed, events, true, rfl, hsearch, ?_⟩, hreads, within_pure _⟩
        rintro (hsome | hsize)
        · cases hsome
        · exact absurd hsize (by simp only [failed]; omega)

end Asn1Context

theorem objectVerdict_goes_on {a : TpmaObject} {bits : Option Asn1Context.BitString} {ctx : Asn1Context}
    (h : objectVerdict a bits ctx = none) : bits.isSome ∨ 0 ≤ ctx.size := by
  cases bits with
  | some b => exact .inl rfl
  | none =>
      rw [objectVerdict] at h
      split at h
      · cases h
      · exact .inr (by omega)

open Asn1Context in
/-- The extensions are read within their octets, and nothing is accepted after a parse error. -/
theorem x509ProcessExtensions_parses {m : Int → UInt8} {fuel : Nat} (b : Int) {len : Int} (hfuel : len.toNat < fuel)
    (a : TpmaObject) :
    (∃ r events failed, (x509ProcessExtensions m fuel a ⟨some b, len⟩).value = (some r, events) ∧ Parses failed events) ∧
      (x509ProcessExtensions m fuel a ⟨some b, len⟩).Within b (b + len) := by
  unfold x509ProcessExtensions asn1UnmarshalContextInitialize
  dsimp only [Option.bind_some]
  by_cases hlen : 0 < len
  · simp only [if_pos hlen, value_bind, within_bind]
    have hall : ∀ {α : Type} {t : Traced α}, (⟨b, len, 0, 0xFF⟩ : Asn1Context).ReadsLeft t → t.Within b (b + len) := by
      intro α t ht
      exact ht.mono (by dsimp only; omega) (Int.le_refl _)
    obtain ⟨-, hreads⟩ := nextTag_tags (m := m) (c := ⟨b, len, 0, 0xFF⟩)
    rcases nextTag_cases m (c := ⟨b, len, 0, 0xFF⟩) hlen.le with
      ⟨ctx, -, hvalue, -⟩ | ⟨tag, n, k, -, hvalue, hk, hfit⟩
    · rw [hvalue]
      exact ⟨⟨_, _, true, rfl, .error⟩, hall hreads, within_pure _⟩
    rw [hvalue]
    dsimp only at hfit ⊢
    by_cases houter : (n : Int) < 0 ∨ tag ≠ Asn1.x509Extensions
    · obtain ⟨failed, hparses⟩ := Parses.ofTag n
      simp only [if_pos houter]
      exact ⟨⟨_, _, failed, rfl, hparses⟩, hall hreads, within_pure _⟩
    simp only [if_neg houter, value_bind, within_bind]
    have hinside : (⟨b, len, 0, 0xFF⟩ : Asn1Context).Inside ⟨b, len, 0 + k, tag⟩ :=
      inside_later (Int.le_refl _) (by dsimp only; omega) (by dsimp only; omega)
    obtain ⟨-, hreads'⟩ := nextTag_tags (m := m) (c := ⟨b, len, 0 + k, tag⟩)
    rcases nextTag_cases m (c := ⟨b, len, 0 + k, tag⟩) hinside.le with
      ⟨ctx, -, hvalue', -⟩ | ⟨tag', n', k', -, hvalue', hk', hfit'⟩
    · rw [hvalue']
      exact ⟨⟨_, _, true, rfl, .element .error⟩, hall hreads, hall (hinside.reads hreads'), within_pure _⟩
    rw [hvalue']
    dsimp only at hfit' ⊢
    by_cases hinner : (n' : Int) < 0 ∨ tag' ≠ Asn1.constructedSequence
    · obtain ⟨failed, hparses⟩ := Parses.ofTag n'
      simp only [if_pos hinner]
      exact ⟨⟨_, _, failed, rfl, hparses.element⟩, hall hreads, hall (hinside.reads hreads'), within_pure _⟩
    simp only [if_neg hinner, value_bind, within_bind]
    have hinside' : (⟨b, len, 0, 0xFF⟩ : Asn1Context).Inside ⟨b, len, 0 + k + k', tag'⟩ :=
      inside_later (Int.le_refl _) (by dsimp only; omega) (by dsimp only; omega)
    obtain ⟨⟨bits, c', ctx, events, failed, hout, hparses, hgoes⟩, hr⟩ := extensionBits_parses (m := m)
      Asn1.oidTcgTpmaObject fuel hinside'.nonneg hinside'.le (by dsimp only; omega)
    rw [hout]
    dsimp only
    cases hverdict : objectVerdict a bits ctx with
    | some r =>
        exact ⟨⟨r, _, failed, rfl, hparses.element.element⟩, hall hreads, hall (hinside.reads hreads'),
          hall (hinside'.reads hr), within_pure _⟩
    | none =>
        obtain ⟨rfl, rfl⟩ := hgoes (objectVerdict_goes_on hverdict)
        obtain ⟨⟨usage, _, _, events', failed', hout', hparses', -⟩, hr'⟩ := extensionBits_parses (m := m)
          Asn1.oidKeyUsageExtension fuel hinside'.nonneg hinside'.le (by dsimp only; omega)
        simp only [value_bind, within_bind, value_pure, within_pure, and_true, hout', Option.map_some]
        exact ⟨⟨_, _, failed', rfl, (hparses.append hparses').element.element⟩, hall hreads,
          hall (hinside.reads hreads'), hall (hinside'.reads hr), hall (hinside'.reads hr')⟩
  · simp only [if_neg hlen]
    exact ⟨⟨_, _, false, rfl, .nil⟩, within_pure _⟩

/-! ## The loop over the elements -/

/-- Nothing happens after a parse error. -/
def ErrorLast (events : List ScanEvent) : Prop :=
  ∀ before after, events = before ++ .parseError :: after → after = []

theorem ErrorLast.cons {e : ScanEvent} {events : List ScanEvent} (he : e ≠ .parseError) (h : ErrorLast events) :
    ErrorLast (e :: events) := by
  intro before after heq
  cases before with
  | nil => exact absurd (List.cons.inj heq).1 he
  | cons x before => exact h before after (List.cons.inj heq).2

theorem ErrorLast.append {xs ys : List ScanEvent} (hxs : .parseError ∉ xs) (hys : ErrorLast ys) :
    ErrorLast (xs ++ ys) := by
  induction xs with
  | nil => exact hys
  | cons x xs ih =>
      rw [List.mem_cons, not_or] at hxs
      exact .cons (Ne.symm hxs.1) (ih hxs.2)

theorem Parses.errorLast {failed : Bool} {events : List ScanEvent} (h : Parses failed events) : ErrorLast events := by
  induction h with
  | nil =>
      intro before after heq
      cases before <;> cases heq
  | error =>
      intro before after heq
      rcases before with _ | ⟨x, _ | ⟨y, before⟩⟩
      · exact (List.cons.inj heq).2.symm
      · cases heq
      · cases heq
  | element _ ih => exact .cons (by decide) ih

theorem Parses.mem {failed : Bool} {events : List ScanEvent} (h : Parses failed events) :
    ∀ e ∈ events, e = .element ∨ e = .parseError := by
  induction h with
  | nil => exact fun e he => absurd he List.not_mem_nil
  | error => exact fun e he => .inr (List.mem_singleton.mp he)
  | element _ ih =>
      intro e he
      rcases List.mem_cons.mp he with rfl | he
      · exact .inl rfl
      · exact ih e he

/-- The scan comes to so many sequences, with extensions at most once between them. -/
inductive ComesTo : Nat → Bool → Bytes → Prop
  | here {seen : Bool} {bs : Bytes} : ComesTo 0 seen bs
  | sequence {k n : Nat} {seen : Bool} {bs rest : Bytes}
      (h : Asn1.nextTag bs = some (Asn1.constructedSequence, n, rest)) (hk : ComesTo k seen (rest.drop n)) :
      ComesTo (k + 1) seen bs
  | extensions {k n : Nat} {bs rest : Bytes} (h : Asn1.nextTag bs = some (Asn1.x509Extensions, n, rest))
      (hk : ComesTo (k + 1) true (rest.drop n)) : ComesTo (k + 1) false bs

theorem comesTo_none {k : Nat} {seen : Bool} {bs : Bytes} (h : Asn1.nextTag bs = none) : ¬ ComesTo (k + 1) seen bs := by
  intro hcomes
  cases hcomes with
  | sequence hnext _ => cases h.symm.trans hnext
  | extensions hnext _ => cases h.symm.trans hnext

theorem comesTo_sequence {k n : Nat} {seen : Bool} {bs rest : Bytes}
    (h : Asn1.nextTag bs = some (Asn1.constructedSequence, n, rest)) :
    ComesTo (k + 1) seen bs ↔ ComesTo k seen (rest.drop n) := by
  constructor
  · intro hcomes
    cases hcomes with
    | sequence hnext hk =>
        cases h.symm.trans hnext
        exact hk
    | extensions hnext _ => cases h.symm.trans hnext
  · exact .sequence h

theorem comesTo_extensions {k n : Nat} {bs rest : Bytes} (seen : Bool)
    (h : Asn1.nextTag bs = some (Asn1.x509Extensions, n, rest)) :
    ComesTo (k + 1) seen bs ↔ seen = false ∧ ComesTo (k + 1) true (rest.drop n) := by
  constructor
  · intro hcomes
    cases hcomes with
    | sequence hnext _ => cases h.symm.trans hnext
    | extensions hnext hk =>
        cases h.symm.trans hnext
        exact ⟨rfl, hk⟩
  · rintro ⟨rfl, hk⟩
    exact .extensions h hk

theorem comesTo_other {k n : Nat} {tag : UInt8} {seen : Bool} {bs rest : Bytes}
    (h : Asn1.nextTag bs = some (tag, n, rest)) (hsequence : tag ≠ Asn1.constructedSequence)
    (hextensions : tag ≠ Asn1.x509Extensions) : ¬ ComesTo (k + 1) seen bs := by
  intro hcomes
  cases hcomes with
  | sequence hnext _ =>
      cases h.symm.trans hnext
      exact hsequence rfl
  | extensions hnext _ =>
      cases h.symm.trans hnext
      exact hextensions rfl

/-- The extensions lie in the range, if they were found. -/
def ExtensionsIn (lo hi : Int) (s : CertificateScan) : Prop :=
  (s.certTbs extensionsRef = {}) ∨
    ∃ b len, s.certTbs extensionsRef = ⟨some b, len⟩ ∧ lo ≤ b ∧ 0 < len ∧ b + len ≤ hi

/-- What is said of a run of the loop: it ends, nothing happens after a parse error, the tables are written at the
places of a sequence up to the fifth and of the extensions, and at the end of the context all was parsed. -/
structure LoopOutcome (m : Int → UInt8) (lo hi : Int) (s : CertificateScan) (r : LoopEnd) (s' : CertificateScan)
    (events : List ScanEvent) : Prop where
  ends : r ≠ .running
  errorLast : ErrorLast events
  certTbs : ∀ i, .certTbs i ∈ events → i = extensionsRef
  sequence : ∀ i, .sequence i ∈ events → i ≤ 4
  fifth : .sequence 4 ∈ events ↔
    ComesTo (5 - s.countOfSequences) (decide ((s.certTbs extensionsRef).len ≠ 0)) (s.ctx.left m)
  finished : r = .left → s'.ctx.offset = s'.ctx.size → .parseError ∉ events ∧ ExtensionsIn lo hi s'

namespace LoopOutcome
variable {m : Int → UInt8} {lo hi : Int} {s s₁ s' : CertificateScan} {r : LoopEnd} {events : List ScanEvent}

/-- The rest of the loop, behind an element that was noted. -/
theorem later {e : ScanEvent} (h : LoopOutcome m lo hi s₁ r s' events) (herror : e ≠ .parseError)
    (hcertTbs : ∀ i, e = .certTbs i → i = extensionsRef) (hsequence : ∀ i, e = .sequence i → i < 4)
    (hcomes : ComesTo (5 - s.countOfSequences) (decide ((s.certTbs extensionsRef).len ≠ 0)) (s.ctx.left m) ↔
      ComesTo (5 - s₁.countOfSequences) (decide ((s₁.certTbs extensionsRef).len ≠ 0)) (s₁.ctx.left m)) :
    LoopOutcome m lo hi s r s' (.element :: e :: events) := by
  refine ⟨h.ends, .cons (by decide) (.cons herror h.errorLast), fun i hi => ?_, fun i hi => ?_, ?_, fun hr hend => ?_⟩
  · rcases List.mem_cons.mp hi with hi | hi
    · cases hi
    rcases List.mem_cons.mp hi with hi | hi
    · exact hcertTbs i hi.symm
    · exact h.certTbs i hi
  · rcases List.mem_cons.mp hi with hi | hi
    · cases hi
    rcases List.mem_cons.mp hi with hi | hi
    · exact (hsequence i hi.symm).le
    · exact h.sequence i hi
  · rw [hcomes, ← h.fifth]
    constructor
    · intro hi
      rcases List.mem_cons.mp hi with hi | hi
      · cases hi
      rcases List.mem_cons.mp hi with hi | hi
      · exact absurd (hsequence 4 hi.symm) (by decide)
      · exact hi
    · exact fun hi => List.mem_cons_of_mem _ (List.mem_cons_of_mem _ hi)
  · obtain ⟨hnone, hin⟩ := h.finished hr hend
    refine ⟨fun hi => ?_, hin⟩
    rcases List.mem_cons.mp hi with hi | hi
    · cases hi
    rcases List.mem_cons.mp hi with hi | hi
    · exact herror hi.symm
    · exact hnone hi

theorem stops {failed : Bool} (hr : r ≠ .running) (hparses : Parses failed events)
    (hcomes : ¬ ComesTo (5 - s.countOfSequences) (decide ((s.certTbs extensionsRef).len ≠ 0)) (s.ctx.left m))
    (hfinished : r = .left → s'.ctx.offset = s'.ctx.size → .parseError ∉ events ∧ ExtensionsIn lo hi s') :
    LoopOutcome m lo hi s r s' events := by
  refine ⟨hr, hparses.errorLast, fun i hi => ?_, fun i hi => ?_, iff_of_false (fun hi => ?_) hcomes, hfinished⟩
  all_goals rcases hparses.mem _ hi with hi | hi <;> cases hi

end LoopOutcome

open Asn1Context in
theorem scanLoop_outcome {m : Int → UInt8} (lo hi : Int) (fuel : Nat) (s : CertificateScan) (hoffset : 0 ≤ s.ctx.offset)
    (h : s.ctx.offset ≤ s.ctx.size) (hlo : lo ≤ s.ctx.buffer + s.ctx.offset) (hhi : s.ctx.buffer + s.ctx.size ≤ hi)
    (hcount : s.countOfSequences ≤ 4) (hext : ExtensionsIn lo hi s) (hfuel : (s.ctx.size - s.ctx.offset).toNat < fuel) :
    (∃ r s' events, (scanLoop m fuel s).value = (r, s', events) ∧ LoopOutcome m lo hi s r s' events) ∧
      (scanLoop m fuel s).Within lo hi := by
  induction fuel generalizing s with
  | zero => exact absurd hfuel (Nat.not_lt_zero _)
  | succ fuel ih =>
      obtain ⟨k, hk⟩ : ∃ k, 5 - s.countOfSequences = k + 1 := ⟨4 - s.countOfSequences, by omega⟩
      rw [scanLoop]
      by_cases hlt : s.ctx.offset < s.ctx.size
      · obtain ⟨-, hreads⟩ := nextTag_tags (m := m) (c := s.ctx)
        have hreads : (s.ctx.nextTag m).Within lo hi := hreads.mono hlo hhi
        simp only [if_pos hlt, value_bind, within_bind]
        rcases nextTag_cases m h with ⟨ctx, hnext, hvalue, hsize, hstart, -⟩ | ⟨tag, n, j, hnext, hvalue, hj, hfit⟩
        · rw [hvalue]
          refine ⟨⟨.left, { s with ctx }, [.parseError], rfl, ?_⟩, hreads, within_pure _⟩
          refine .stops (by decide) .error (by rw [hk]; exact comesTo_none hnext) fun _ hend => ?_
          dsimp only at hend
          omega
        rw [hvalue]
        dsimp only
        rw [if_neg (by omega)]
        have hrest : (⟨s.ctx.buffer, s.ctx.size, s.ctx.offset + j + n, tag⟩ : Asn1Context).left m =
            ((s.ctx.left m).drop j).drop n := by
          rw [List.drop_drop, ← left_advance]
          have hadd : ((j + n : Nat) : Int) = j + n := Int.natCast_add ..
          rw [advance, hadd, ← Int.add_assoc]
          rfl
        by_cases hsequence : tag = Asn1.constructedSequence
        · rw [if_pos hsequence]
          subst hsequence
          by_cases hfifth : allowedSequences < s.countOfSequences + 1
          · have hfour : s.countOfSequences = 4 := Nat.le_antisymm hcount (Nat.le_of_lt_succ hfifth)
            rw [if_pos hfifth]
            refine ⟨⟨_, _, _, rfl, ?_⟩, hreads, within_pure _⟩
            rw [hfour]
            have hone : ComesTo (5 - s.countOfSequences) (decide ((s.certTbs extensionsRef).len ≠ 0)) (s.ctx.left m) := by
              rw [hfour]
              exact (comesTo_sequence hnext).mpr .here
            refine ⟨by decide, .cons (by decide) (.cons (by decide) Parses.nil.errorLast), ?_, ?_,
              iff_of_true (by decide) hone, fun _ _ => ⟨by decide, hext⟩⟩
            · intro i hi
              rcases List.mem_cons.mp hi with hi | hi
              · cases hi
              · cases List.mem_singleton.mp hi
            · intro i hi
              rcases List.mem_cons.mp hi with hi | hi
              · cases hi
              · cases List.mem_singleton.mp hi
                exact Nat.le_refl 4
          · have hlt4 : s.countOfSequences < 4 := by
              unfold allowedSequences at hfifth
              omega
            rw [if_neg hfifth]
            obtain ⟨⟨r, s', events, hout, houtcome⟩, hr⟩ := ih { s with
              ctx := ⟨s.ctx.buffer, s.ctx.size, s.ctx.offset + j + n, Asn1.constructedSequence⟩
              sequences := Function.update s.sequences s.countOfSequences
                ⟨some (s.ctx.buffer + s.ctx.offset), s.ctx.offset + j + n - s.ctx.offset⟩
              countOfSequences := s.countOfSequences + 1 } (by dsimp only; omega) hfit (by dsimp only; omega) hhi
              hlt4 hext (by dsimp only; omega)
            simp only [value_bind, within_bind, value_pure, advance]
            rw [hout]
            refine ⟨⟨r, s', _, rfl, houtcome.later (by simp) nofun ?_ ?_⟩, hreads, hr, within_pure _⟩
            · intro i hi
              cases hi
              exact hlt4
            · dsimp only
              rw [hrest, show 5 - s.countOfSequences = 5 - (s.countOfSequences + 1) + 1 by omega]
              exact comesTo_sequence hnext
        rw [if_neg hsequence]
        by_cases hextensions : tag = Asn1.x509Extensions
        · rw [if_pos hextensions]
          subst hextensions
          have hcomes := comesTo_extensions (k := k) (decide ((s.certTbs extensionsRef).len ≠ 0)) hnext
          by_cases hseen : (s.certTbs extensionsRef).len ≠ 0
          · rw [if_pos hseen]
            refine ⟨⟨_, _, _, rfl, .stops (by decide) (.element .nil) ?_ nofun⟩, hreads, within_pure _⟩
            rw [hk, hcomes, decide_eq_true hseen]
            rintro ⟨hfalse, -⟩
            cases hfalse
          · rw [if_neg hseen]
            obtain ⟨⟨r, s', events, hout, houtcome⟩, hr⟩ := ih { s with
              ctx := ⟨s.ctx.buffer, s.ctx.size, s.ctx.offset + j + n, Asn1.x509Extensions⟩
              certTbs := Function.update s.certTbs extensionsRef
                ⟨some (s.ctx.buffer + s.ctx.offset), s.ctx.offset + j + n - s.ctx.offset⟩ }
              (by dsimp only; omega) hfit (by dsimp only; omega) hhi hcount
              (.inr ⟨s.ctx.buffer + s.ctx.offset, s.ctx.offset + j + n - s.ctx.offset,
                by dsimp only; rw [Function.update_self], by omega, by omega, by omega⟩) (by dsimp only; omega)
            simp only [value_bind, within_bind, value_pure, advance]
            rw [hout]
            refine ⟨⟨r, s', _, rfl, houtcome.later (by simp) ?_ nofun ?_⟩, hreads, hr, within_pure _⟩
            · intro i hi
              cases hi
              rfl
            · have hlen : s.ctx.offset + j + n - s.ctx.offset ≠ 0 := by omega
              dsimp only
              rw [hrest, hk, hcomes, decide_eq_false hseen]
              simp only [Function.update_self, hlen, ne_eq, not_false_eq_true, decide_true, true_and]
        · rw [if_neg hextensions]
          refine ⟨⟨_, _, _, rfl, .stops (by decide) (.element .nil) ?_ nofun⟩, hreads, within_pure _⟩
          rw [hk]
          exact comesTo_other hnext hsequence hextensions
      · rw [if_neg hlt]
        refine ⟨⟨_, _, _, rfl, .stops (by decide) .nil ?_ fun _ _ => ⟨List.not_mem_nil, hext⟩⟩, within_pure _⟩
        rw [hk, left_of_le m s.ctx (by omega)]
        exact comesTo_none rfl

/-! ## The whole scan -/

/-- A run of the scan that ends, writes and reads within its tables and the certificate, and accepts nothing after a
parse error. -/
structure StaysInside (size buffer : Int) (run : Traced (Option (Except Fault Unit) × List ScanEvent)) : Prop where
  ends : run.value.1.isSome
  sequences : ∀ i, .sequence i ∈ run.value.2 → i < allowedSequences
  certTbs : ∀ i, .certTbs i ∈ run.value.2 → 0 ≤ i ∧ i < refCount
  reads : run.Within buffer (buffer + size)
  errorLast : ErrorLast run.value.2

/-- The outermost sequence uses the whole certificate and the scan of its contents comes to a fifth sequence. -/
def LeadsToFifth (certificate : Bytes) : Prop :=
  ∃ n rest, Asn1.nextTag certificate = some (Asn1.constructedSequence, n, rest) ∧ n = rest.length ∧ ComesTo 5 false rest

theorem placeSequences_places {s : CertificateScan} (h : s.countOfSequences ≤ 4) :
    ∀ e ∈ placeSequences s, ∃ i, e = .certTbs i ∧ 0 ≤ i ∧ i < refCount := by
  intro e he
  obtain ⟨i, hi, rfl⟩ := List.mem_map.mp he
  have hlt := List.mem_range.mp hi
  refine ⟨subjectKeyRef - i, rfl, ?_, ?_⟩
  · unfold subjectKeyRef
    omega
  · unfold subjectKeyRef refCount
    omega

/-- What follows the loop ends, reads the extensions alone, and notes elements only where nothing has failed. -/
theorem finishScan_tail {m : Int → UInt8} {size buffer : Int} {s s' : CertificateScan} {r : LoopEnd}
    {events : List ScanEvent} (h : LoopOutcome m buffer (buffer + size) s r s' events) (canIdentify : Bool)
    (a : TpmaObject) :
    (∃ verdict tail, (finishScan m (size.toNat + 1) canIdentify a r s').value = (some verdict, tail) ∧
        (∀ e ∈ tail, e = .element ∨ e = .parseError ∨ ∃ i, e = .certTbs i ∧ 0 ≤ i ∧ i < refCount) ∧
        (tail ≠ [] → .parseError ∉ events ∧ ErrorLast tail)) ∧
      (finishScan m (size.toNat + 1) canIdentify a r s').Within buffer (buffer + size) := by
  have hnothing : ∀ e ∈ ([] : List ScanEvent),
      e = .element ∨ e = .parseError ∨ ∃ i, e = .certTbs i ∧ 0 ≤ i ∧ i < refCount := fun e he => absurd he List.not_mem_nil
  unfold finishScan
  cases hr : r with
  | running => exact absurd hr h.ends
  | refused => exact ⟨⟨_, [], rfl, hnothing, fun hne => absurd rfl hne⟩, within_pure _⟩
  | left =>
      dsimp only
      by_cases hbad : s'.ctx.offset ≠ s'.ctx.size ∨ s'.countOfSequences < 3 ∨ 4 < s'.countOfSequences ∨
          (s'.certTbs extensionsRef).buf = none
      · rw [if_pos hbad]
        exact ⟨⟨_, [], rfl, hnothing, fun hne => absurd rfl hne⟩, within_pure _⟩
      rw [if_neg hbad]
      simp only [not_or, ne_eq, not_not, Nat.not_lt] at hbad
      obtain ⟨hend, -, hcount, hbuf⟩ := hbad
      obtain ⟨hnone, hext⟩ := h.finished hr hend
      have hplaces := placeSequences_places hcount
      have hfree : .parseError ∉ placeSequences s' := by
        intro he
        obtain ⟨i, hi, -⟩ := hplaces _ he
        cases hi
      by_cases hname : s'.countOfSequences = 3 ∧ canIdentify = false
      · rw [if_pos hname]
        refine ⟨⟨_, _, rfl, fun e he => .inr (.inr (hplaces e he)), fun _ => ⟨hnone, ?_⟩⟩, within_pure _⟩
        have hlast := ErrorLast.append hfree Parses.nil.errorLast
        rwa [List.append_nil] at hlast
      · rw [if_neg hname]
        obtain hempty | ⟨b, len, href, hlo, hpos, hhi⟩ := hext
        · rw [hempty] at hbuf
          exact absurd rfl hbuf
        obtain ⟨⟨verdict, tail, failed, hout, hparses⟩, hreads⟩ :=
          x509ProcessExtensions_parses (m := m) b (show len.toNat < size.toNat + 1 by omega) a
        simp only [value_bind, within_bind, value_pure, within_pure, and_true]
        rw [href, hout]
        refine ⟨⟨_, _, rfl, fun e he => ?_, fun _ => ⟨hnone, .append hfree hparses.errorLast⟩⟩, hreads.mono hlo hhi⟩
        rcases List.mem_append.mp he with he | he
        · exact .inr (.inr (hplaces e he))
        · rcases hparses.mem e he with he | he
          · exact .inl he
          · exact .inr (.inl he)

/-- The whole run stays inside exactly where the loop does not come to a fifth sequence. -/
theorem staysInside_iff {m : Int → UInt8} {size buffer : Int} {s s' : CertificateScan} {r : LoopEnd}
    {events : List ScanEvent} (tail : List ScanEvent) {run : Traced (Option (Except Fault Unit) × List ScanEvent)}
    (h : LoopOutcome m buffer (buffer + size) s r s' events)
    (hevents : run.value.2 = .element :: (events ++ tail)) (hends : run.value.1.isSome)
    (hreads : run.Within buffer (buffer + size))
    (htail : ∀ e ∈ tail, e = .element ∨ e = .parseError ∨ ∃ i, e = .certTbs i ∧ 0 ≤ i ∧ i < refCount)
    (herror : tail ≠ [] → .parseError ∉ events ∧ ErrorLast tail) :
    StaysInside size buffer run ↔ .sequence 4 ∉ events := by
  constructor
  · intro hstays hfifth
    refine absurd (hstays.sequences 4 ?_) (by decide)
    rw [hevents]
    exact List.mem_cons_of_mem _ (List.mem_append_left _ hfifth)
  · intro hno
    refine ⟨hends, fun i hi => ?_, fun i hi => ?_, hreads, ?_⟩
    · rw [hevents] at hi
      rcases List.mem_cons.mp hi with hi | hi
      · cases hi
      rcases List.mem_append.mp hi with hi | hi
      · have hle := h.sequence i hi
        have hne : i ≠ 4 := by
          rintro rfl
          exact hno hi
        unfold allowedSequences
        omega
      · rcases htail _ hi with hi | hi | ⟨_, hi, -⟩ <;> cases hi
    · rw [hevents] at hi
      rcases List.mem_cons.mp hi with hi | hi
      · cases hi
      rcases List.mem_append.mp hi with hi | hi
      · rw [h.certTbs i hi]
        decide
      · rcases htail _ hi with hi | hi | ⟨j, hi, hin⟩
        · cases hi
        · cases hi
        · cases hi
          exact hin
    · rw [hevents]
      refine .cons (by decide) ?_
      by_cases hempty : tail = []
      · rw [hempty, List.append_nil]
        exact h.errorLast
      · obtain ⟨hnone, hlast⟩ := herror hempty
        exact .append hnone hlast

theorem staysInside_of_parses {size buffer : Int} (failed : Bool)
    {run : Traced (Option (Except Fault Unit) × List ScanEvent)} (hends : run.value.1.isSome)
    (hparses : Parses failed run.value.2) (hreads : run.Within buffer (buffer + size)) : StaysInside size buffer run := by
  refine ⟨hends, fun i hi => ?_, fun i hi => ?_, hreads, hparses.errorLast⟩
  all_goals rcases hparses.mem _ hi with hi | hi <;> cases hi

open Asn1Context in
/-- For every certificate of any octets and length the scan stays inside its tables and its input exactly where it does
not come to a fifth sequence; and every function that reads stays in the context that it is given. -/
theorem certificateScan_inside_iff (m : Int → UInt8) (size buffer : Int) (canIdentify : Bool) (a : TpmaObject) :
    (StaysInside size buffer (scanCertificate m (size.toNat + 1) size buffer canIdentify a) ↔
        ¬ LeadsToFifth ((⟨buffer, size, 0, 0xFF⟩ : Asn1Context).left m)) ∧
      ∀ (c : Asn1Context) (oid : Bytes), 0 ≤ c.offset → c.offset ≤ c.size →
        c.ReadsLeft (c.decodeLength m) ∧ c.ReadsLeft (c.nextTag m) ∧
          c.ReadsLeft (c.findExtensionByOid m oid (c.size.toNat + 1)) ∧
          c.ReadsLeft (c.getExtensionBits m (c.size.toNat + 1)) := by
  constructor
  · unfold scanCertificate asn1UnmarshalContextInitialize
    by_cases hsize : 0 < size
    · simp only [if_pos hsize]
      obtain ⟨-, hreads⟩ := nextTag_tags (m := m) (c := ⟨buffer, size, 0, 0xFF⟩)
      have hlen := left_length m ⟨buffer, size, 0, 0xFF⟩
      have hreads : Traced.Within buffer (buffer + size) (nextTag m ⟨buffer, size, 0, 0xFF⟩) :=
        hreads.mono (by dsimp only; omega) (Int.le_refl _)
      rcases nextTag_cases m (c := ⟨buffer, size, 0, 0xFF⟩) hsize.le with
        ⟨ctx, hnext, hvalue, -, -, hend⟩ | ⟨tag, n, k, hnext, hvalue, hk, hfit⟩
      · have hrefused : ctx.tag ≠ Asn1.constructedSequence ∨ ctx.offset + -1 ≠ size := by
          dsimp only at hend
          omega
        refine iff_of_true (staysInside_of_parses true ?_ ?_ ?_) ?_
        · rw [value_bind, hvalue]
          dsimp only
          rw [if_pos hrefused]
          rfl
        · rw [value_bind, hvalue]
          dsimp only
          rw [if_pos hrefused]
          exact .error
        · rw [within_bind, hvalue]
          dsimp only
          rw [if_pos hrefused]
          exact ⟨hreads, within_pure _⟩
        · rintro ⟨n, rest, hsome, -⟩
          cases hnext.symm.trans hsome
      rw [show (⟨buffer, size, 0, 0xFF⟩ : Asn1Context).offset + k = k from Int.zero_add _] at hvalue hfit
      dsimp only at hfit
      by_cases hrefused : tag ≠ Asn1.constructedSequence ∨ (k : Int) + n ≠ size
      · obtain ⟨failed, hparses⟩ := Parses.ofTag n
        refine iff_of_true (staysInside_of_parses failed ?_ ?_ ?_) ?_
        · rw [value_bind, hvalue]
          dsimp only
          rw [if_pos hrefused]
          rfl
        · rw [value_bind, hvalue]
          dsimp only
          rw [if_pos hrefused]
          exact hparses
        · rw [within_bind, hvalue]
          dsimp only
          rw [if_pos hrefused]
          exact ⟨hreads, within_pure _⟩
        · rintro ⟨n', rest, hsome, hn, -⟩
          cases hnext.symm.trans hsome
          rw [List.length_drop, hlen] at hn
          dsimp only at hn
          refine hrefused.elim (fun h => h rfl) fun h => h ?_
          omega
      · obtain ⟨⟨r, s', events, hloop, houtcome⟩, hr⟩ := scanLoop_outcome (m := m) buffer (buffer + size)
          (size.toNat + 1) { ctx := ⟨buffer, size, k, tag⟩ } (Int.natCast_nonneg k) (by dsimp only; omega)
          (by dsimp only; omega) (Int.le_refl _) (Nat.zero_le _) (.inl rfl) (by dsimp only; omega)
        obtain ⟨⟨verdict, tail, hfinish, htail, herror⟩, hr'⟩ := finishScan_tail houtcome canIdentify a
        have hfifth := houtcome.fifth
        have hofTag : ScanEvent.ofTag n = .element := if_neg (by omega)
        refine (staysInside_iff tail houtcome ?_ ?_ ?_ htail herror).trans (not_congr ?_)
        · simp only [value_bind, hvalue, if_neg hrefused, hloop, hfinish, hofTag, value_pure]
        · simp only [value_bind, hvalue, if_neg hrefused, hloop, hfinish, value_pure, Option.isSome_some]
        · simp only [within_bind, hvalue, if_neg hrefused, hloop, hfinish, within_pure, and_true]
          exact ⟨hreads, hr, hr'⟩
        · rw [not_or, not_not, not_not] at hrefused
          obtain ⟨rfl, huses⟩ := hrefused
          have hrest : (⟨buffer, size, k, Asn1.constructedSequence⟩ : Asn1Context).left m =
              ((⟨buffer, size, 0, 0xFF⟩ : Asn1Context).left m).drop k := by
            rw [← left_advance, advance, Int.zero_add]
            rfl
          rw [hfifth]
          dsimp only
          rw [hrest]
          constructor
          · intro hcomes
            refine ⟨n, _, hnext, ?_, hcomes⟩
            rw [List.length_drop, hlen]
            dsimp only
            omega
          · rintro ⟨n', rest, hsome, -, hcomes⟩
            cases hnext.symm.trans hsome
            exact hcomes
    · simp only [if_neg hsize]
      refine iff_of_true (staysInside_of_parses false rfl .nil (within_pure _)) ?_
      rintro ⟨n, rest, hsome, -⟩
      rw [left_of_le m _ (by dsimp only; omega)] at hsome
      cases hsome
  · intro c oid hoffset h
    refine ⟨decodeLength_decodes.2, nextTag_tags.2, ?_, (getExtensionBits_parses _ hoffset h (by omega)).2⟩
    unfold findExtensionByOid ReadsLeft
    simp only [within_bind, within_pure, and_true]
    exact (findLoop_searches oid hoffset h (by omega)).2

/-- The octets of a certificate from address 0 on. -/
def certificateAt (certificate : Bytes) (i : Int) : UInt8 := certificate.getD i.toNat 0

/-- Of five empty sequences the fifth is written behind the table. -/
theorem fifth_sequence_outside :
    ¬ StaysInside 16 0 (scanCertificate (certificateAt
      [0x30, 0x0E, 0x30, 0, 0x30, 0, 0x30, 0, 0x30, 0, 0x30, 0, 0xA3, 0x02, 0x30, 0]) 17 16 0 true {}) := by
  intro h
  exact absurd (h.sequences 4 (by decide)) (by decide)

/-- Four of them are not one too many. -/
theorem four_sequences_inside :
    StaysInside 14 0 (scanCertificate (certificateAt
      [0x30, 0x0C, 0x30, 0, 0x30, 0, 0x30, 0, 0x30, 0, 0xA3, 0x02, 0x30, 0]) 15 14 0 true {}) := by
  refine (certificateScan_inside_iff _ 14 0 true {}).1.mpr ?_
  rintro ⟨n, rest, hnext, -, hcomes⟩
  cases (show Asn1.nextTag _ = some (Asn1.constructedSequence, 12,
    [0x30, 0, 0x30, 0, 0x30, 0, 0x30, 0, 0xA3, 0x02, 0x30, 0]) from rfl).symm.trans hnext
  rw [comesTo_sequence rfl, comesTo_sequence rfl, comesTo_sequence rfl, comesTo_sequence rfl,
    comesTo_extensions _ rfl] at hcomes
  exact comesTo_none rfl hcomes.2

end PqcTpm
