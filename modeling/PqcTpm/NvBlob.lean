import PqcTpm.Public

/-!
# Blobs of the state format

`NVMarshal.c`, first part: the versioned header every blob starts with, the blocks a
reader may skip, and the private exponent of an RSA key.
-/
namespace PqcTpm
open ByteCodec

/-! ## Headers -/

/-- `NV_HEADER_Marshal`; `min_version` is written from version 2 on. -/
def nvHeaderMarshal (version magic minVersion : Nat) : Bytes :=
  be 2 version ++ (be 4 magic ++ if 2 ≤ version then be 2 minVersion else [])

/-- `NV_HEADER_Unmarshal`: the version found, which is all that later code looks at. -/
def nvHeaderUnmarshal (curVersion expMagic : Nat) : Unmarshal Nat := do
  let version ← readUint16
  let magic ← Reader.word 4 (.of .insufficient)
  Reader.check (decide (magic = expMagic)) (.of .badTag)
  if 2 ≤ version then do
    let minVersion ← readUint16
    Reader.check (decide (minVersion ≤ curVersion)) (.of .badVersion)
    pure version
  else pure version

theorem reads_nvHeader {version curVersion magic minVersion : Nat} (hv : version < 256 ^ 2)
    (hm : magic < 256 ^ 4) (hmin : minVersion ≤ curVersion) (hcur : curVersion < 256 ^ 2) :
    Reads (nvHeaderUnmarshal curVersion magic) (nvHeaderMarshal version magic minVersion) version := by
  refine (reads_uint16 hv).bind ?_
  refine (Reads.word _ hm).bind ?_
  refine (Reads.check (decide_eq_true rfl)).bind_nil ?_
  split
  · refine (reads_uint16 (Nat.lt_of_le_of_lt hmin hcur)).bind_last ?_
    exact (Reads.check (decide_eq_true hmin)).bind_nil (Reads.pure version)
  · exact Reads.pure version

theorem nvHeader_badTag {curVersion magic : Nat} {bs : Bytes} (hlen : 6 ≤ bs.length)
    (hm : fromBe ((bs.drop 2).take 4) ≠ magic) :
    nvHeaderUnmarshal curVersion magic bs = .error (.of .badTag) := by
  have h2 : ¬ bs.length < 2 := by omega
  have h4 : ¬ (bs.drop 2).length < 4 := by
    rw [List.length_drop]
    omega
  simp only [nvHeaderUnmarshal, readUint16, Reader.word, Reader.take, Reader.bind_apply, h2, h4, if_false,
    Reader.pure_apply, Reader.check, decide_eq_false hm, Bool.false_eq_true, Reader.fail_apply]

theorem nvHeaderMarshal_length (version magic minVersion : Nat) :
    (nvHeaderMarshal version magic minVersion).length ≤ 8 := by
  simp only [nvHeaderMarshal, List.length_append, be_length]
  split <;> simp

/-! ## Blocks that may be skipped -/

/-- `BLOCK_SKIP_WRITE_PUSH … BLOCK_SKIP_WRITE_POP` around `block`. -/
def blockSkipMarshal (hasBlock : Bool) (block : Bytes) : Bytes :=
  be 1 hasBlock.toNat ++ (be 2 block.length ++ block)

/-- `block_skip_read`: true when the code for the block is to be skipped. The source moves its
position by the block size without comparing it with what is left. -/
def blockSkipRead (needsBlock : Bool) : Unmarshal Bool := do
  let hasBlock ← Reader.word 1 (.of .insufficient)
  let blocksize ← readUint16
  if hasBlock = 0 then
    if needsBlock then Reader.fail (.of .badParameter) else pure true
  else if needsBlock then pure false
  else do
    let _ ← Reader.take blocksize .overrun
    pure true

theorem reads_blockSkip {hasBlock : Bool} {block : Bytes} (hlen : block.length < 256 ^ 2)
    (hempty : hasBlock = false → block = []) :
    Reads (blockSkipRead false) (blockSkipMarshal hasBlock block) true := by
  refine Reads.bind (Reads.word _ (w := 1) (n := hasBlock.toNat) (by cases hasBlock <;> decide)) ?_
  refine (reads_uint16 hlen).bind ?_
  cases hasBlock with
  | false =>
      rw [hempty rfl]
      exact Reads.pure true
  | true => exact (Reads.take block _).bind_last (Reads.pure true)

theorem reads_blockEnter {α : Type} {f : Bool → Unmarshal α} {block rest : Bytes} {a : α}
    (hlen : block.length < 256 ^ 2) (hf : Reads (f false) (block ++ rest) a) :
    Reads (blockSkipRead true >>= f) (blockSkipMarshal true block ++ rest) a := by
  have hread : Reads (blockSkipRead true) (be 1 1 ++ be 2 block.length) false := by
    refine Reads.bind (Reads.word _ (w := 1) (n := 1) (by decide)) ?_
    exact (reads_uint16 hlen).bind_last (Reads.pure false)
  have h := hread.bind hf
  simp only [List.append_assoc] at h
  simpa only [blockSkipMarshal, Bool.toNat_true, List.append_assoc] using h

theorem reads_blockEnter_last {α : Type} {f : Bool → Unmarshal α} {block : Bytes} {a : α}
    (hlen : block.length < 256 ^ 2) (hf : Reads (f false) block a) :
    Reads (blockSkipRead true >>= f) (blockSkipMarshal true block) a := by
  have hnil : Reads (f false) (block ++ []) a := by rwa [List.append_nil]
  have h := reads_blockEnter hlen hnil
  rwa [List.append_nil] at h

/-- The empty block that ends every blob since version 2. -/
def futureVersionsMarshal : Bytes := blockSkipMarshal true []

def futureVersionsRead (version : Nat) : Unmarshal Unit :=
  if 2 ≤ version then do
    let _ ← blockSkipRead false
    pure ()
  else pure ()

theorem reads_futureVersions {version : Nat} (hv : 2 ≤ version) :
    Reads (futureVersionsRead version) futureVersionsMarshal () := by
  rw [futureVersionsRead, if_pos hv]
  exact (reads_blockSkip (by decide) (by decide)).bind_last (Reads.pure ())

/-! ## The private exponent -/

/-- `ci_prime_t`: the words in use, at most the 25 that are allocated. -/
structure CiPrime where
  d : List UInt64
  size_le : d.length ≤ 25
  deriving DecidableEq

namespace CiPrime

def ofWords (ws : List UInt64) : CiPrime := ⟨ws.take 25, List.length_take_le 25 ws⟩

theorem ofWords_d (c : CiPrime) : ofWords c.d = c := by
  cases c with
  | mk d h => simp only [ofWords, List.take_of_length_le h]

/-- The reader takes 32-bit words and shifts each pair together; a last word without a partner
ends up in the upper half. -/
def combine : List UInt32 → List UInt64
  | [] => []
  | [hi] => [UInt64.ofNat (2 ^ 32 * hi.toNat)]
  | hi :: lo :: ws => UInt64.ofNat (2 ^ 32 * hi.toNat + lo.toNat) :: combine ws

def marshal (c : CiPrime) : Bytes :=
  nvHeaderMarshal 2 0x2fe736ab 1 ++ (be 2 (8 * c.d.length) ++
    (c.d.flatMap (fun w => be 8 w.toNat) ++ futureVersionsMarshal))

def unmarshal : Unmarshal CiPrime := do
  let version ← nvHeaderUnmarshal 2 0x2fe736ab
  let numbytes ← readUint16
  Reader.check (decide ((numbytes + 7) / 8 ≤ 25)) (.of .size)
  let words ← Reader.many readUint32 ((numbytes + 3) / 4)
  futureVersionsRead version
  pure (ofWords (combine words))

theorem marshal_length (c : CiPrime) : c.marshal.length ≤ 213 := by
  have hh := nvHeaderMarshal_length 2 0x2fe736ab 1
  have hd := c.size_le
  have hw : (c.d.flatMap (fun w => be 8 w.toNat)).length = 8 * c.d.length := by
    simp [List.length_flatMap, Nat.mul_comm]
  have hf : futureVersionsMarshal.length = 3 := by decide
  simp only [marshal, List.length_append, be_length, hw, hf]
  omega

/-- The 32-bit words in the order they are written. -/
def halves (w : UInt64) : List UInt32 := [UInt32.ofNat (w.toNat / 2 ^ 32), UInt32.ofNat w.toNat]

theorem combine_halves (ws : List UInt64) : combine (ws.flatMap halves) = ws := by
  induction ws with
  | nil => rfl
  | cons w ws ih =>
      have hlt := UInt64.toNat_lt w
      have hhi : (UInt32.ofNat (w.toNat / 2 ^ 32)).toNat = w.toNat / 2 ^ 32 := by
        rw [UInt32.toNat_ofNat']
        omega
      have hlo : (UInt32.ofNat w.toNat).toNat = w.toNat % 2 ^ 32 := UInt32.toNat_ofNat'
      have hw : 2 ^ 32 * (w.toNat / 2 ^ 32) + w.toNat % 2 ^ 32 = w.toNat := Nat.div_add_mod _ _
      simp only [List.flatMap_cons, halves, List.cons_append, List.nil_append, combine, hhi, hlo, hw, ih,
        UInt64.ofNat_toNat]

theorem be_halves (w : UInt64) : be 8 w.toNat = (halves w).flatMap writeUint32 := by
  have hlt := UInt64.toNat_lt w
  have hhi : (UInt32.ofNat (w.toNat / 2 ^ 32)).toNat = w.toNat / 256 ^ 4 := by
    rw [UInt32.toNat_ofNat']
    omega
  have hlo : be 4 (UInt32.ofNat w.toNat).toNat = be 4 w.toNat := by
    rw [UInt32.toNat_ofNat']
    exact be_mod 4 w.toNat
  simp only [halves, List.flatMap_cons, List.flatMap_nil, List.append_nil, writeUint32, hhi, hlo]
  exact be_add 4 4 w.toNat

theorem reads (c : CiPrime) : Reads unmarshal c.marshal c := by
  have hwords : c.d.flatMap (fun w => be 8 w.toNat) = (c.d.flatMap halves).flatMap writeUint32 := by
    rw [List.flatMap_assoc]
    exact List.flatMap_congr fun w _ => be_halves w
  have hcount : (8 * c.d.length + 3) / 4 = (c.d.flatMap halves).length := by
    have hlen : (c.d.flatMap halves).length = 2 * c.d.length := by
      simp [List.length_flatMap, halves, Nat.mul_comm]
    omega
  have hd := c.size_le
  refine (reads_nvHeader (by decide) (by decide) (by decide) (by decide)).bind ?_
  refine (reads_uint16 (by omega)).bind ?_
  refine (Reads.check (decide_eq_true (by omega))).bind_nil ?_
  rw [hwords, hcount]
  refine (Reads.many writeUint32 fun n _ => reads_uint32 n).bind ?_
  refine (reads_futureVersions (by decide)).bind_last ?_
  rw [combine_halves, ofWords_d]
  exact Reads.pure c

end CiPrime

/-- `privateExponent_t`. -/
structure PrivateExponent where
  Q : CiPrime
  dP : CiPrime
  dQ : CiPrime
  qInv : CiPrime
  deriving DecidableEq

namespace PrivateExponent

/-- The contents of a cleared slot. -/
def zero : PrivateExponent :=
  { Q := .ofWords [], dP := .ofWords [], dQ := .ofWords [], qInv := .ofWords [] }

def marshal (e : PrivateExponent) : Bytes :=
  nvHeaderMarshal 2 0x854eab2 1 ++
    (e.Q.marshal ++ (e.dP.marshal ++ (e.dQ.marshal ++ (e.qInv.marshal ++ futureVersionsMarshal))))

def unmarshal : Unmarshal PrivateExponent := do
  let version ← nvHeaderUnmarshal 2 0x854eab2
  let q ← CiPrime.unmarshal
  let dP ← CiPrime.unmarshal
  let dQ ← CiPrime.unmarshal
  let qInv ← CiPrime.unmarshal
  futureVersionsRead version
  pure ⟨q, dP, dQ, qInv⟩

theorem marshal_length (e : PrivateExponent) : e.marshal.length < 256 ^ 2 := by
  have hh := nvHeaderMarshal_length 2 0x854eab2 1
  have h1 := e.Q.marshal_length
  have h2 := e.dP.marshal_length
  have h3 := e.dQ.marshal_length
  have h4 := e.qInv.marshal_length
  have hf : futureVersionsMarshal.length = 3 := by decide
  simp only [marshal, List.length_append, hf]
  omega

theorem reads (e : PrivateExponent) : Reads unmarshal e.marshal e := by
  refine (reads_nvHeader (by decide) (by decide) (by decide) (by decide)).bind ?_
  refine e.Q.reads.bind ?_
  refine e.dP.reads.bind ?_
  refine e.dQ.reads.bind ?_
  refine e.qInv.reads.bind ?_
  exact (reads_futureVersions (by decide)).bind_last (Reads.pure e)

end PrivateExponent

end PqcTpm
