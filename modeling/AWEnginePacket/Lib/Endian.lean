/-
Fixed-width integers as bytes, and the byte order of a host.

`leBytes n x` is the n-byte little-endian representation of `x`,
`ofLe` reads one back. A host stores an n-byte integer either way
round (`ByteOrder.store`, `ByteOrder.load`); the usual conversion
macros are the identity on one kind of host and a byte swap on the
other (`htole`, `htobe`, and their inverses).

The two facts everything else uses: whatever the host, storing a
converted value lays down the little-endian (`store_htole`) or
big-endian (`store_htobe`) bytes, and loading bytes and converting
back reads them in that order (`letoh_load`, `betoh_load`). So a value
written by one host is read by any other.
-/
import Mathlib.Data.List.Basic
import Mathlib.Tactic.Ring

namespace Endian

-- ================================================= little-endian digits

/-- The `n` little-endian bytes of `x`, higher digits dropped. -/
def leBytes : Nat → Nat → List UInt8
  | 0, _ => []
  | n + 1, x => UInt8.ofNat x :: leBytes n (x / 256)

/-- The natural number with the given little-endian bytes. -/
def ofLe : List UInt8 → Nat
  | [] => 0
  | b :: bs => b.toNat + 256 * ofLe bs

@[simp] theorem leBytes_length (n x : Nat) : (leBytes n x).length = n := by
  induction n generalizing x with
  | zero => rfl
  | succ n ih => rw [leBytes, List.length_cons, ih]

/-- Reading back the low `n` digits reduces modulo `256 ^ n`. -/
theorem ofLe_leBytes (n x : Nat) : ofLe (leBytes n x) = x % 256 ^ n := by
  induction n generalizing x with
  | zero => rw [leBytes, ofLe, Nat.pow_zero, Nat.mod_one]
  | succ n ih =>
      rw [leBytes, ofLe, ih, Nat.pow_succ', Nat.mod_mul]
      simp

/-- An integer of `n` bytes is its digits. -/
theorem ofLe_leBytes_of_lt {n x : Nat} (h : x < 256 ^ n) :
    ofLe (leBytes n x) = x := by
  rw [ofLe_leBytes, Nat.mod_eq_of_lt h]

/-- `n` bytes hold a number below `256 ^ n`. -/
theorem ofLe_lt (bs : List UInt8) : ofLe bs < 256 ^ bs.length := by
  induction bs with
  | nil => simp [ofLe]
  | cons b bs ih =>
      have hb : b.toNat < 256 := b.toNat_lt
      rw [ofLe, List.length_cons, Nat.pow_succ]
      omega

/-- Bytes are determined by the number they hold and their length. -/
theorem leBytes_ofLe (bs : List UInt8) : leBytes bs.length (ofLe bs) = bs := by
  induction bs with
  | nil => rfl
  | cons b bs ih =>
      have hb : b.toNat < 256 := b.toNat_lt
      have hdiv : (b.toNat + 256 * ofLe bs) / 256 = ofLe bs := by omega
      rw [ofLe, List.length_cons, leBytes, hdiv, ih]
      congr 1
      apply UInt8.toNat_inj.mp
      rw [UInt8.toNat_ofNat']
      omega

-- =========================================================== byte orders

/-- The order in which a host lays an integer's bytes down in memory. -/
inductive ByteOrder
  | little
  | big
deriving DecidableEq, Repr

/-- The `n`-byte integer with the bytes of `x` the other way round. -/
def bswap (n x : Nat) : Nat := ofLe (leBytes n x).reverse

namespace ByteOrder

/-- The memory of an `n`-byte integer, lowest address first. -/
def store (o : ByteOrder) (n x : Nat) : List UInt8 :=
  match o with
  | .little => leBytes n x
  | .big => (leBytes n x).reverse

/-- The integer in a stretch of memory. -/
def load (o : ByteOrder) (bs : List UInt8) : Nat :=
  match o with
  | .little => ofLe bs
  | .big => ofLe bs.reverse

/-- Host to little-endian, and back: the macros `htole` and `letoh`. -/
def htole (o : ByteOrder) (n x : Nat) : Nat :=
  match o with
  | .little => x
  | .big => bswap n x

/-- Host to big-endian, and back: the macros `htobe` and `betoh`. -/
def htobe (o : ByteOrder) (n x : Nat) : Nat :=
  match o with
  | .little => bswap n x
  | .big => x

end ByteOrder

/-- The bytes of a swapped integer are the integer's bytes reversed. -/
theorem leBytes_bswap (n x : Nat) :
    leBytes n (bswap n x) = (leBytes n x).reverse := by
  have hlen : (leBytes n x).reverse.length = n := by simp
  have h := leBytes_ofLe (leBytes n x).reverse
  rw [hlen] at h
  exact h

theorem bswap_lt (n x : Nat) : bswap n x < 256 ^ n := by
  have h := ofLe_lt (leBytes n x).reverse
  rw [List.length_reverse, leBytes_length] at h
  exact h

/-- Swapping the integer some bytes hold reads them backwards. -/
theorem bswap_ofLe (bs : List UInt8) :
    bswap bs.length (ofLe bs) = ofLe bs.reverse := by
  rw [bswap, leBytes_ofLe]

variable (o : ByteOrder)

@[simp] theorem store_length (n x : Nat) : (o.store n x).length = n := by
  cases o <;> simp [ByteOrder.store]

/-- A host reads back what it stored. -/
theorem load_store {n x : Nat} (h : x < 256 ^ n) :
    o.load (o.store n x) = x := by
  cases o with
  | little => exact ofLe_leBytes_of_lt h
  | big =>
      rw [ByteOrder.store, ByteOrder.load, List.reverse_reverse]
      exact ofLe_leBytes_of_lt h

/-- A single byte lies the same way round on every host. -/
theorem store_one (x : Nat) : o.store 1 x = leBytes 1 x := by
  cases o <;> rfl

/-- Storing a value converted to little-endian lays down its
little-endian bytes, whatever the host. -/
theorem store_htole (n x : Nat) : o.store n (o.htole n x) = leBytes n x := by
  cases o with
  | little => rfl
  | big =>
      rw [ByteOrder.store, ByteOrder.htole, leBytes_bswap,
        List.reverse_reverse]

/-- Storing a value converted to big-endian lays down its big-endian
bytes, whatever the host. -/
theorem store_htobe (n x : Nat) :
    o.store n (o.htobe n x) = (leBytes n x).reverse := by
  cases o with
  | little => rw [ByteOrder.store, ByteOrder.htobe, leBytes_bswap]
  | big => rfl

/-- Loading bytes and converting from little-endian reads them as
little-endian, whatever the host. -/
theorem letoh_load (bs : List UInt8) :
    o.htole bs.length (o.load bs) = ofLe bs := by
  cases o with
  | little => rfl
  | big =>
      have h := bswap_ofLe bs.reverse
      rw [List.length_reverse, List.reverse_reverse] at h
      exact h

/-- Loading bytes and converting from big-endian reads them as
big-endian, whatever the host. -/
theorem betoh_load (bs : List UInt8) :
    o.htobe bs.length (o.load bs) = ofLe bs.reverse := by
  cases o with
  | little => exact bswap_ofLe bs
  | big => rfl

end Endian
