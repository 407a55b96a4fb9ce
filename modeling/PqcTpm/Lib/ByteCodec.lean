import Mathlib.Tactic.Common
import Mathlib.Data.List.Basic
import Mathlib.Tactic.Ring

/-!
# Byte streams, big-endian words and readers

A reader consumes a prefix of a byte string and either fails with an error code
or returns a value and the unread rest. `Reads p x a` says that `p`, started on
any string that begins with `x`, consumes exactly `x` and returns `a`; it is
closed under sequencing, which is all that a writer/reader pair ever needs.
Nothing here depends on a particular wire format.
-/
namespace ByteCodec

abbrev Bytes := List UInt8

/-- The `w` low-order bytes of `n`, most significant first. -/
def be : Nat → Nat → Bytes
  | 0, _ => []
  | w + 1, n => UInt8.ofNat (n / 256 ^ w) :: be w n

def fromBe (bs : Bytes) : Nat := bs.foldl (fun acc b => 256 * acc + b.toNat) 0

/-- The `w` low-order bytes of `n`, least significant first: a word as a little-endian
machine keeps it in memory. -/
def le (w n : Nat) : Bytes := (be w n).reverse

def fromLe (bs : Bytes) : Nat := fromBe bs.reverse

@[simp] theorem be_length (w n : Nat) : (be w n).length = w := by
  induction w with
  | zero => rfl
  | succ w ih => simp only [be, List.length_cons, ih]

@[simp] theorem le_length (w n : Nat) : (le w n).length = w := by
  simp only [le, List.length_reverse, be_length]

theorem be_add (v w n : Nat) : be (v + w) n = be v (n / 256 ^ w) ++ be w n := by
  induction v with
  | zero => rw [Nat.zero_add, be, List.nil_append]
  | succ v ih =>
      rw [Nat.succ_add, be, be, ih, List.cons_append, Nat.div_div_eq_div_mul, ← Nat.pow_add,
        Nat.add_comm w v]

theorem be_mod (w n : Nat) : be w (n % 256 ^ w) = be w n := by
  induction w generalizing n with
  | zero => rfl
  | succ w ih =>
      have hhead : UInt8.ofNat (n % 256 ^ (w + 1) / 256 ^ w) = UInt8.ofNat (n / 256 ^ w) := by
        rw [Nat.pow_succ, Nat.mod_mul_right_div_self]
        exact UInt8.toNat.inj (by simp)
      have htail : be w (n % 256 ^ (w + 1)) = be w n := by
        rw [← ih (n % 256 ^ (w + 1)), Nat.mod_mod_of_dvd n (Nat.pow_dvd_pow 256 (Nat.le_succ w)), ih]
      rw [be, be, hhead, htail]

theorem fromBe_foldl (bs : Bytes) (acc : Nat) :
    bs.foldl (fun acc b => 256 * acc + b.toNat) acc = 256 ^ bs.length * acc + fromBe bs := by
  induction bs generalizing acc with
  | nil => simp [fromBe]
  | cons b bs ih =>
      simp only [List.foldl_cons, List.length_cons, fromBe]
      rw [ih, ih (256 * 0 + b.toNat), pow_succ]
      ring_nf

theorem fromBe_cons (b : UInt8) (bs : Bytes) :
    fromBe (b :: bs) = 256 ^ bs.length * b.toNat + fromBe bs := by
  simp only [fromBe, List.foldl_cons]
  rw [fromBe_foldl]
  simp only [fromBe, Nat.mul_zero, Nat.zero_add]

theorem fromBe_lt (bs : Bytes) : fromBe bs < 256 ^ bs.length := by
  induction bs with
  | nil => exact Nat.one_pos
  | cons b bs ih =>
      rw [fromBe_cons, List.length_cons, Nat.pow_succ]
      have hb : b.toNat < 256 := b.toNat_lt
      calc 256 ^ bs.length * b.toNat + fromBe bs < 256 ^ bs.length * b.toNat + 256 ^ bs.length := Nat.add_lt_add_left ih _
        _ = 256 ^ bs.length * (b.toNat + 1) := by rw [Nat.mul_add, Nat.mul_one]
        _ ≤ 256 ^ bs.length * 256 := Nat.mul_le_mul_left _ hb

theorem fromBe_be_mod (w n : Nat) : fromBe (be w n) = n % 256 ^ w := by
  induction w with
  | zero => simp [be, fromBe, Nat.mod_one]
  | succ w ih =>
      have hb : (UInt8.ofNat (n / 256 ^ w)).toNat = n / 256 ^ w % 256 := UInt8.toNat_ofNat'
      rw [be, fromBe_cons, ih, be_length, hb, Nat.pow_succ (m := w), Nat.mod_mul]
      exact Nat.add_comm _ _

theorem fromBe_be {w n : Nat} (h : n < 256 ^ w) : fromBe (be w n) = n := by
  rw [fromBe_be_mod, Nat.mod_eq_of_lt h]

theorem be_fromBe (bs : Bytes) : be bs.length (fromBe bs) = bs := by
  induction bs with
  | nil => rfl
  | cons b bs ih =>
      have hdiv : fromBe (b :: bs) / 256 ^ bs.length = b.toNat := by
        rw [fromBe_cons, Nat.mul_add_div (Nat.pow_pos (by decide)), Nat.div_eq_of_lt (fromBe_lt bs), Nat.add_zero]
      have hmod : fromBe (b :: bs) % 256 ^ bs.length = fromBe bs := by
        rw [fromBe_cons, Nat.mul_add_mod, Nat.mod_eq_of_lt (fromBe_lt bs)]
      rw [List.length_cons, be, hdiv, UInt8.ofNat_toNat, ← be_mod, hmod, ih]

theorem fromLe_le {w n : Nat} (h : n < 256 ^ w) : fromLe (le w n) = n := by
  simp only [fromLe, le, List.reverse_reverse, fromBe_be h]

/-- A bit field as a number, least significant bit first. -/
def ofBits : List Bool → Nat
  | [] => 0
  | b :: bs => b.toNat + 2 * ofBits bs

theorem ofBits_lt (bs : List Bool) : ofBits bs < 2 ^ bs.length := by
  induction bs with
  | nil => exact Nat.one_pos
  | cons b bs ih =>
      have hb := Bool.toNat_le b
      simp only [ofBits, List.length_cons, Nat.pow_succ]
      omega

theorem testBit_ofBits (bs : List Bool) (i : Nat) : (ofBits bs).testBit i = bs.getD i false := by
  induction bs generalizing i with
  | nil => simp [ofBits]
  | cons b bs ih =>
      cases i with
      | zero => cases b <;> simp [ofBits, Nat.testBit_zero]
      | succ i =>
          have hdiv : (b.toNat + 2 * ofBits bs) / 2 = ofBits bs := by
            have hb := Bool.toNat_le b
            omega
          rw [ofBits, Nat.testBit_succ, hdiv, ih, List.getD_cons_succ]

/-- A fallible reader over a byte string, with error codes in `ε`. -/
def Reader (ε α : Type) := Bytes → Except ε (α × Bytes)

namespace Reader
variable {ε α β : Type}

instance : Monad (Reader ε) where
  pure a := fun bs => .ok (a, bs)
  bind p f := fun bs =>
    match p bs with
    | .error e => .error e
    | .ok (a, rest) => f a rest

def fail (e : ε) : Reader ε α := fun _ => .error e

/-- Stop with `e` unless `c` holds. -/
def check (c : Bool) (e : ε) : Reader ε Unit := if c then pure () else fail e

/-- Exactly `n` bytes, or `e` when fewer are left. -/
def take (n : Nat) (e : ε) : Reader ε Bytes := fun bs =>
  if bs.length < n then .error e else .ok (bs.take n, bs.drop n)

/-- A big-endian word of `w` bytes. -/
def word (w : Nat) (e : ε) : Reader ε Nat := do
  let bs ← take w e
  pure (fromBe bs)

/-- A word that names one of the values in `all`, or `bad` when it names none of them. -/
def enum (w : Nat) (code : α → Nat) (all : List α) (short bad : ε) : Reader ε α := do
  let n ← word w short
  match all.find? (fun a => code a == n) with
  | some a => pure a
  | none => fail bad

/-- The same reader `n` times. -/
def many (p : Reader ε α) : Nat → Reader ε (List α)
  | 0 => pure []
  | n + 1 => do
      let a ← p
      let as ← many p n
      pure (a :: as)

@[simp] theorem pure_apply (a : α) (bs : Bytes) : (pure a : Reader ε α) bs = .ok (a, bs) := rfl

@[simp] theorem fail_apply (e : ε) (bs : Bytes) : (fail e : Reader ε α) bs = .error e := rfl

theorem bind_apply (p : Reader ε α) (f : α → Reader ε β) (bs : Bytes) :
    (p >>= f) bs = match p bs with
      | .error e => .error e
      | .ok (a, rest) => f a rest := rfl

theorem bind_error {p : Reader ε α} {f : α → Reader ε β} {bs : Bytes} {e : ε} (h : p bs = .error e) :
    (p >>= f) bs = .error e := by
  rw [bind_apply, h]

theorem map_error {p : Reader ε α} (g : α → β) {bs : Bytes} {e : ε} (h : p bs = .error e) :
    (g <$> p) bs = .error e :=
  bind_error (f := fun a => Pure.pure (g a)) h

theorem bind_eq_ok {p : Reader ε α} {f : α → Reader ε β} {bs : Bytes} {r : β × Bytes}
    (h : (p >>= f) bs = .ok r) : ∃ a rest, p bs = .ok (a, rest) ∧ f a rest = .ok r := by
  rw [bind_apply] at h
  cases hp : p bs with
  | error e => rw [hp] at h; cases h
  | ok ar => rw [hp] at h; exact ⟨ar.1, ar.2, rfl, h⟩

theorem map_eq_ok {p : Reader ε α} {g : α → β} {bs rest : Bytes} {b : β}
    (h : (g <$> p) bs = .ok (b, rest)) : ∃ a, p bs = .ok (a, rest) ∧ b = g a := by
  obtain ⟨a, mid, hp, h⟩ := bind_eq_ok (f := pure ∘ g) h
  cases h
  exact ⟨a, hp, rfl⟩

theorem check_eq_ok {c : Bool} {e : ε} {bs : Bytes} {r : Unit × Bytes}
    (h : (check c e : Reader ε Unit) bs = .ok r) : c = true ∧ r = ((), bs) := by
  unfold check at h
  cases c with
  | true => exact ⟨rfl, (Except.ok.inj h).symm⟩
  | false => cases h

theorem check_bind_eq_ok {c : Bool} {e : ε} {q : Reader ε β} {bs : Bytes} {r : β × Bytes}
    (h : (check c e >>= fun _ => q) bs = .ok r) : c = true ∧ q bs = .ok r := by
  obtain ⟨u, mid, hcheck, hq⟩ := bind_eq_ok h
  obtain ⟨hc, hmid⟩ := check_eq_ok hcheck
  rw [(Prod.mk.inj hmid).2] at hq
  exact ⟨hc, hq⟩

theorem take_eq_ok {n : Nat} {e : ε} {bs x rest : Bytes} (h : take n e bs = .ok (x, rest)) :
    x.length = n ∧ bs = x ++ rest := by
  unfold take at h
  split at h
  · cases h
  · rename_i hlen
    obtain ⟨rfl, rfl⟩ := Prod.mk.inj (Except.ok.inj h)
    refine ⟨?_, (List.take_append_drop n bs).symm⟩
    rw [List.length_take]
    omega

theorem word_lt {w n : Nat} {e : ε} {bs rest : Bytes} (h : word w e bs = .ok (n, rest)) : n < 256 ^ w := by
  obtain ⟨x, mid, htake, h⟩ := bind_eq_ok h
  obtain ⟨rfl, -⟩ := Prod.mk.inj (Except.ok.inj h)
  rw [← (take_eq_ok htake).1]
  exact fromBe_lt x

theorem many_mem {q : α → Prop} {r : Reader ε α} (hr : ∀ bs a rest, r bs = .ok (a, rest) → q a) {n : Nat}
    {bs rest : Bytes} {as : List α} (h : many r n bs = .ok (as, rest)) : ∀ a ∈ as, q a := by
  induction n generalizing bs as with
  | zero =>
      cases h
      exact fun a ha => absurd ha List.not_mem_nil
  | succ n ih =>
      obtain ⟨a, bs', ha, h⟩ := bind_eq_ok h
      obtain ⟨as', bs'', has, h⟩ := bind_eq_ok h
      cases h
      intro b hb
      rcases List.mem_cons.mp hb with rfl | hb
      · exact hr _ _ _ ha
      · exact ih has b hb

end Reader

/-- `p` consumes exactly `x` in front of any rest and returns `a`. -/
def Reads {ε α : Type} (p : Reader ε α) (x : Bytes) (a : α) : Prop :=
  ∀ rest, p (x ++ rest) = .ok (a, rest)

namespace Reads
variable {ε α β : Type} {p : Reader ε α} {f : α → Reader ε β} {x y : Bytes} {a : α} {b : β}

theorem pure (a : α) : Reads (Pure.pure a : Reader ε α) [] a := fun _ => rfl

theorem bind (hp : Reads p x a) (hf : Reads (f a) y b) : Reads (p >>= f) (x ++ y) b := by
  intro rest
  rw [Reader.bind_apply, List.append_assoc, hp (y ++ rest)]
  exact hf rest

theorem bind_error {rest : Bytes} {e : ε} (hp : Reads p x a) (hf : f a rest = .error e) :
    (p >>= f) (x ++ rest) = .error e := by
  rw [Reader.bind_apply, hp rest]
  exact hf

theorem bind_nil (hp : Reads p [] a) (hf : Reads (f a) y b) : Reads (p >>= f) y b :=
  hp.bind hf

theorem bind_last (hp : Reads p x a) (hf : Reads (f a) [] b) : Reads (p >>= f) x b := by
  simpa only [List.append_nil] using hp.bind hf

theorem map (hp : Reads p x a) (g : α → β) : Reads (g <$> p) x (g a) :=
  hp.bind_last (Reads.pure (g a))

theorem check {c : Bool} {e : ε} (h : c = true) : Reads (Reader.check c e) [] () := by
  subst h
  exact Reads.pure ()

theorem take (x : Bytes) (e : ε) : Reads (Reader.take x.length e) x x := by
  intro rest
  simp only [Reader.take, List.length_append, List.take_left', List.drop_left']
  rw [if_neg (by omega)]

theorem word {w n : Nat} (e : ε) (h : n < 256 ^ w) : Reads (Reader.word w e) (be w n) n := by
  have ht : Reads (Reader.take w e) (be w n) (be w n) := by
    simpa only [be_length] using Reads.take (be w n) e
  refine ht.bind_last ?_
  rw [fromBe_be h]
  exact Reads.pure n

theorem enum {w : Nat} {code : α → Nat} {all : List α} (short bad : ε) (ha : a ∈ all)
    (hw : code a < 256 ^ w) (hinj : ∀ b ∈ all, code b = code a → b = a) :
    Reads (Reader.enum w code all short bad) (be w (code a)) a := by
  refine (Reads.word short hw).bind_last ?_
  have hfind : all.find? (fun b => code b == code a) = some a := by
    have hsome : (all.find? (fun b => code b == code a)).isSome := by
      exact List.find?_isSome.2 ⟨a, ha, beq_self_eq_true (code a)⟩
    obtain ⟨b, hb⟩ := Option.isSome_iff_exists.1 hsome
    have hcode : (code b == code a) = true := by
      simpa only using List.find?_some hb
    rw [hb, hinj b (List.mem_of_find?_eq_some hb) (eq_of_beq hcode)]
  simp only [hfind]
  exact Reads.pure a

theorem many {as : List α} (enc : α → Bytes) (h : ∀ a ∈ as, Reads p (enc a) a) :
    Reads (Reader.many p as.length) (as.flatMap enc) as := by
  induction as with
  | nil => exact Reads.pure []
  | cons a as ih =>
      rw [List.flatMap_cons]
      refine (h a List.mem_cons_self).bind ?_
      exact (ih fun b hb => h b (List.mem_cons_of_mem a hb)).bind_last (Reads.pure (a :: as))

theorem all (h : Reads p x a) : p x = .ok (a, []) := by
  simpa only [List.append_nil] using h []

end Reads

/-- What `p` accepts is what `enc` writes for the value that `p` returns, in front of the rest. -/
def Rewrites {ε α : Type} (p : Reader ε α) (enc : α → Bytes) : Prop :=
  ∀ ⦃bs a rest⦄, p bs = .ok (a, rest) → bs = enc a ++ rest

namespace Rewrites
variable {ε α β : Type} {p : Reader ε α} {enc : α → Bytes}

theorem word (w : Nat) (e : ε) : Rewrites (Reader.word w e) (be w) := by
  intro bs n rest h
  obtain ⟨x, mid, htake, h⟩ := Reader.bind_eq_ok h
  obtain ⟨rfl, rfl⟩ := Prod.mk.inj (Except.ok.inj h)
  obtain ⟨hx, hbs⟩ := Reader.take_eq_ok htake
  rw [← hx, be_fromBe]
  exact hbs

theorem enum (w : Nat) (code : α → Nat) (all : List α) (short bad : ε) :
    Rewrites (Reader.enum w code all short bad) fun a => be w (code a) := by
  intro bs a rest h
  obtain ⟨n, mid, hword, h⟩ := Reader.bind_eq_ok h
  cases hfind : all.find? (fun a => code a == n) with
  | none =>
      rw [hfind] at h
      cases h
  | some b =>
      rw [hfind] at h
      obtain ⟨rfl, rfl⟩ := Prod.mk.inj (Except.ok.inj h)
      have hcode : (code b == n) = true := by simpa only using List.find?_some hfind
      simp only [eq_of_beq hcode]
      exact word w short hword

end Rewrites

end ByteCodec
