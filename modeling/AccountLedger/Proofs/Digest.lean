import Mathlib.Algebra.Group.Nat.Defs
import AccountLedger.Sha256
/-!
# The hash over natural numbers

The hash is computed once more with natural numbers in place of words of 32 bits, so that proofs may
evaluate it: the kernel adds, shifts and combines natural numbers at once, and unfolds every
operation on words.  The words of a schedule are packed into one number, the newest in its lowest
bits.

* `compress_plain`: a block is mixed into the state as over words;
* `digest_plain`: the first word of the hash of a message of two blocks.
-/

namespace AccountLedger.Sha256.Plain

/-- applies a function to a number that is computed first -/
def after {α : Type} (n : Nat) (next : Nat → α) : α :=
  match n with
  | 0 => next 0
  | m + 1 => next m.succ

theorem after_eq {α : Type} (n : Nat) (next : Nat → α) : after n next = next n := by
  cases n <;> rfl

/-- what is left of a number in a word -/
def wrap (n : Nat) : Nat := Nat.mod n 4294967296

def rotate (x n : Nat) : Nat :=
  Nat.lor (Nat.shiftRight x n) (wrap (Nat.shiftLeft x (Nat.sub 32 n)))

/-- the eight words that a message is mixed into -/
structure State where
  a : Nat
  b : Nat
  c : Nat
  d : Nat
  e : Nat
  f : Nat
  g : Nat
  h : Nat

/-- the word with `i` newer ones -/
def wordAt (packed i : Nat) : Nat := wrap (Nat.shiftRight packed (Nat.mul 32 i))

def nextWord (packed : Nat) : Nat :=
  after (wordAt packed 14) fun x => after (wordAt packed 1) fun y =>
    let s := Nat.xor (Nat.xor (rotate x 7) (rotate x 18)) (Nat.shiftRight x 3)
    let t := Nat.xor (Nat.xor (rotate y 17) (rotate y 19)) (Nat.shiftRight y 10)
    wrap (Nat.add (Nat.add (Nat.add (wordAt packed 15) s) (wordAt packed 6)) t)

def widen : Nat → Nat → Nat
  | 0, packed => packed
  | n + 1, packed => after (Nat.add (nextWord packed) (Nat.mul 4294967296 packed)) (widen n)

def mix (s : State) (word : Nat) : State :=
  let s1 := Nat.xor (Nat.xor (rotate s.e 6) (rotate s.e 11)) (rotate s.e 25)
  let choice := Nat.xor (Nat.land s.e s.f) (Nat.land (Nat.sub 4294967295 s.e) s.g)
  let s0 := Nat.xor (Nat.xor (rotate s.a 2) (rotate s.a 13)) (rotate s.a 22)
  let majority := Nat.xor (Nat.xor (Nat.land s.a s.b) (Nat.land s.a s.c)) (Nat.land s.b s.c)
  after (Nat.add (Nat.add (Nat.add s.h s1) choice) word) fun t1 =>
    after (wrap (Nat.add (Nat.add t1 s0) majority)) fun a =>
      after (wrap (Nat.add s.d t1)) fun e => ⟨a, s.a, s.b, s.c, e, s.e, s.f, s.g⟩

/-- mixes packed words into the state, the oldest first, each with its constant added -/
def mixAll (packed : Nat) : List Nat → State → State
  | [], s => s
  | k :: rest, s => mixAll packed rest (mix s (Nat.add (wordAt packed rest.length) k))

def add (s t : State) : State :=
  ⟨wrap (Nat.add s.a t.a), wrap (Nat.add s.b t.b), wrap (Nat.add s.c t.c), wrap (Nat.add s.d t.d),
    wrap (Nat.add s.e t.e), wrap (Nat.add s.f t.f), wrap (Nat.add s.g t.g), wrap (Nat.add s.h t.h)⟩

def constants : List Nat := roundConstants.map UInt32.toNat

/-- the state after a block of sixteen packed words -/
def compress (s : State) (block : Nat) : State :=
  after (widen 48 block) fun schedule => add s (mixAll schedule constants s)

/-! ## words as numbers -/

def ofState (s : Sha256.State) : State :=
  ⟨s.a.toNat, s.b.toNat, s.c.toNat, s.d.toNat, s.e.toNat, s.f.toNat, s.g.toNat, s.h.toNat⟩

/-- packs words of which the newest comes first -/
def pack : List UInt32 → Nat
  | [] => 0
  | w :: rest => w.toNat + 4294967296 * pack rest

theorem toNat_rotate (x n : UInt32) (h : n.toNat < 32) (h' : 0 < n.toNat) :
    (Sha256.rotate x n).toNat = rotate x.toNat n.toNat := by
  have hsub : (32 - n).toNat = 32 - n.toNat := UInt32.toNat_sub_of_le _ _ (by
    rw [UInt32.le_iff_toNat_le]
    exact Nat.le_of_lt h)
  rw [Sha256.rotate, UInt32.toNat_or, UInt32.toNat_shiftRight, UInt32.toNat_shiftLeft, hsub,
    Nat.mod_eq_of_lt h, Nat.mod_eq_of_lt (show 32 - n.toNat < 32 by omega)]
  rfl

theorem wordAt_pack (l : List UInt32) (i : Nat) : wordAt (pack l) i = (l.getD i 0).toNat := by
  show (pack l >>> (32 * i)) % 4294967296 = _
  induction l generalizing i with
  | nil => simp [pack]
  | cons w rest ih =>
    have hw := w.toNat_lt
    cases i with
    | zero =>
      show (w.toNat + 4294967296 * pack rest) % 4294967296 = w.toNat
      omega
    | succ i =>
      have hdiv : (w.toNat + 4294967296 * pack rest) / 4294967296 = pack rest := by omega
      have hshift : (pack (w :: rest)) >>> (32 * (i + 1)) = pack rest >>> (32 * i) := by
        rw [Nat.mul_succ, Nat.add_comm, Nat.shiftRight_add]
        exact congrArg (· >>> (32 * i)) ((Nat.shiftRight_eq_div_pow _ 32).trans hdiv)
      rw [hshift, ih]
      rfl

theorem nextWord_pack (l : List UInt32) : nextWord (pack l) = (Sha256.nextWord l).toNat := by
  simp only [nextWord, after_eq, wordAt_pack]
  simp only [Sha256.nextWord, UInt32.toNat_add, UInt32.toNat_xor, UInt32.toNat_shiftRight,
    toNat_rotate _ _ (show UInt32.toNat 7 < 32 by decide) (by decide),
    toNat_rotate _ _ (show UInt32.toNat 18 < 32 by decide) (by decide),
    toNat_rotate _ _ (show UInt32.toNat 17 < 32 by decide) (by decide),
    toNat_rotate _ _ (show UInt32.toNat 19 < 32 by decide) (by decide)]
  simp only [Nat.mod_add_mod]
  rfl

theorem widen_pack (n : Nat) (l : List UInt32) : widen n (pack l) = pack (Sha256.widen n l) := by
  induction n generalizing l with
  | zero => rfl
  | succ n ih =>
    rw [widen, after_eq, nextWord_pack]
    exact ih (Sha256.nextWord l :: l)

theorem mix_ofState (s : Sha256.State) {n : Nat} {w : UInt32} (h : n % 2 ^ 32 = w.toNat) :
    mix (ofState s) n = ofState (Sha256.mix s w) := by
  simp only [mix, after_eq, ofState, Sha256.mix, UInt32.toNat_add, UInt32.toNat_xor,
    UInt32.toNat_and, UInt32.toNat_not,
    toNat_rotate _ _ (show UInt32.toNat 6 < 32 by decide) (by decide),
    toNat_rotate _ _ (show UInt32.toNat 11 < 32 by decide) (by decide),
    toNat_rotate _ _ (show UInt32.toNat 25 < 32 by decide) (by decide),
    toNat_rotate _ _ (show UInt32.toNat 2 < 32 by decide) (by decide),
    toNat_rotate _ _ (show UInt32.toNat 13 < 32 by decide) (by decide),
    toNat_rotate _ _ (show UInt32.toNat 22 < 32 by decide) (by decide), ← h]
  simp only [Nat.mod_add_mod, Nat.add_mod_mod]
  rfl

theorem mixAll_pack (ks newer older : List UInt32) (s : Sha256.State)
    (h : newer.length = ks.length) :
    mixAll (pack (newer ++ older)) (ks.map UInt32.toNat) (ofState s) =
      ofState ((List.zipWith (· + ·) newer.reverse ks).foldl Sha256.mix s) := by
  induction ks generalizing newer older s with
  | nil =>
    obtain rfl := List.length_eq_zero_iff.1 h
    rfl
  | cons k rest ih =>
    -- the oldest of the newer words is the next one
    rcases List.eq_nil_or_concat newer with rfl | ⟨front, w, rfl⟩
    · cases h
    rw [List.concat_eq_append] at h ⊢
    have hfront : front.length = rest.length := by simpa using h
    have hword : wordAt (pack (front ++ [w] ++ older)) rest.length = w.toNat := by
      rw [wordAt_pack, ← hfront]
      simp
    have hsum : (w.toNat + k.toNat) % 2 ^ 32 = (w + k).toNat := (UInt32.toNat_add w k).symm
    rw [List.map_cons, mixAll, List.length_map, hword]
    rw [show Nat.add w.toNat k.toNat = w.toNat + k.toNat from rfl, mix_ofState s hsum,
      List.append_assoc, ih front ([w] ++ older) _ hfront]
    simp

theorem length_widen (n : Nat) (l : List UInt32) : (Sha256.widen n l).length = n + l.length := by
  induction n generalizing l with
  | zero => simp [Sha256.widen]
  | succ n ih =>
    rw [Sha256.widen, ih, List.length_cons]
    omega

theorem compress_ofState (s : Sha256.State) (block : List UInt32) (h : block.length = 16) :
    compress (ofState s) (pack block.reverse) = ofState (Sha256.compress s block) := by
  have hlength : (Sha256.widen 48 block.reverse).length = roundConstants.length := by
    rw [length_widen, List.length_reverse, h]
    rfl
  have hmix := mixAll_pack roundConstants (Sha256.widen 48 block.reverse) [] s hlength
  rw [List.append_nil] at hmix
  rw [compress, after_eq, widen_pack, constants, hmix]
  simp only [Sha256.compress, add, ofState, Sha256.add, UInt32.toNat_add]
  rfl

/-! ## messages -/

/-- the number whose base-256 digits the bytes are, the most significant first -/
def big (bs : Bytes) : Nat := bs.foldl (fun n b => n * 256 + b.toNat) 0

theorem big_append (xs ys : Bytes) : big (xs ++ ys) = big xs * 256 ^ ys.length + big ys := by
  have h : ∀ (ys : Bytes) (n : Nat), ys.foldl (fun n b => n * 256 + b.toNat) n =
      n * 256 ^ ys.length + big ys := by
    intro ys
    induction ys with
    | nil => simp [big]
    | cons y rest ih =>
      intro n
      have hcons : big (y :: rest) = (0 * 256 + y.toNat) * 256 ^ rest.length + big rest := ih _
      rw [List.foldl_cons, ih, hcons, List.length_cons, Nat.pow_succ', Nat.zero_mul, Nat.zero_add,
        Nat.add_mul, Nat.mul_assoc, Nat.add_assoc]
  exact (List.foldl_append ..).trans (h ys _)

/-- Bits that do not overlap add up. -/
theorem or_eq_add (x : Nat) {y : Nat} (i : Nat) (h : y < 2 ^ i) : 2 ^ i * x ||| y = 2 ^ i * x + y :=
  (Nat.two_pow_add_eq_or_of_lt h x).symm

theorem toNat_shifted (x : UInt8) {n : UInt32} (h : n.toNat ≤ 24) :
    (x.toUInt32 <<< n).toNat = 2 ^ n.toNat * x.toNat := by
  have hn : n.toNat % 32 = n.toNat := Nat.mod_eq_of_lt (by omega)
  have hlt : 2 ^ n.toNat * x.toNat < 2 ^ 24 * 2 ^ 8 :=
    Nat.mul_lt_mul_of_le_of_lt (Nat.pow_le_pow_right (by decide) h) x.toNat_lt (by decide)
  rw [UInt32.toNat_shiftLeft, UInt8.toNat_toUInt32, hn, Nat.shiftLeft_eq, Nat.mul_comm]
  exact Nat.mod_eq_of_lt hlt

theorem toNat_word (a b c d : UInt8) :
    ((a.toUInt32 <<< 24) ||| (b.toUInt32 <<< 16) ||| (c.toUInt32 <<< 8) ||| d.toUInt32).toNat =
      big [a, b, c, d] := by
  have hb := b.toNat_lt
  have hc := c.toNat_lt
  have hd := d.toNat_lt
  rw [UInt32.toNat_or, UInt32.toNat_or, UInt32.toNat_or, toNat_shifted a (by decide),
    toNat_shifted b (by decide), toNat_shifted c (by decide), UInt8.toNat_toUInt32]
  show 2 ^ 24 * a.toNat ||| 2 ^ 16 * b.toNat ||| 2 ^ 8 * c.toNat ||| d.toNat =
    (((0 * 256 + a.toNat) * 256 + b.toNat) * 256 + c.toNat) * 256 + d.toNat
  have hab : 2 ^ 24 * a.toNat ||| 2 ^ 16 * b.toNat = 2 ^ 16 * (2 ^ 8 * a.toNat + b.toNat) := by
    rw [or_eq_add _ 24 (by omega)]
    omega
  have habc : 2 ^ 16 * (2 ^ 8 * a.toNat + b.toNat) ||| 2 ^ 8 * c.toNat =
      2 ^ 8 * (2 ^ 8 * (2 ^ 8 * a.toNat + b.toNat) + c.toNat) := by
    rw [or_eq_add _ 16 (by omega)]
    omega
  rw [hab, habc, or_eq_add _ 8 hd]
  omega

theorem pack_concat (l : List UInt32) (w : UInt32) :
    pack (l ++ [w]) = pack l + 256 ^ (4 * l.length) * w.toNat := by
  induction l with
  | nil => simp [pack]
  | cons v rest ih =>
    have hpow : 256 ^ (4 * (rest.length + 1)) = 4294967296 * 256 ^ (4 * rest.length) := by
      rw [Nat.mul_succ, Nat.pow_add, Nat.mul_comm]
    rw [List.cons_append, pack, ih, pack, List.length_cons, hpow, Nat.mul_add, Nat.mul_assoc,
      Nat.add_assoc]

/-- Packing the words of a block reads its bytes as one number. -/
theorem pack_words (n : Nat) (bs : Bytes) (h : bs.length = 4 * n) :
    (words bs).length = n ∧ pack (words bs).reverse = big bs := by
  induction n generalizing bs with
  | zero =>
    obtain rfl := List.length_eq_zero_iff.1 h
    exact ⟨rfl, rfl⟩
  | succ n ih =>
    rcases bs with _ | ⟨a, _ | ⟨b, _ | ⟨c, _ | ⟨d, rest⟩⟩⟩⟩
    · cases h
    · simp only [List.length_cons, List.length_nil] at h
      omega
    · simp only [List.length_cons, List.length_nil] at h
      omega
    · simp only [List.length_cons, List.length_nil] at h
      omega
    have hrest : rest.length = 4 * n := by
      simp only [List.length_cons] at h
      omega
    obtain ⟨hlength, hpack⟩ := ih rest hrest
    refine ⟨by rw [words, List.length_cons, hlength], ?_⟩
    rw [words, List.reverse_cons, pack_concat, hpack, List.length_reverse, hlength, toNat_word,
      show a :: b :: c :: d :: rest = [a, b, c, d] ++ rest from rfl, big_append, hrest,
      Nat.mul_comm, Nat.add_comm]

theorem big_wordBytes (w : UInt32) : big (wordBytes w) = w.toNat := by
  have hw := w.toNat_lt
  have byte : ∀ n : UInt32, n.toNat < 32 →
      (w >>> n).toUInt8.toNat = w.toNat / 2 ^ n.toNat % 256 := by
    intro n hn
    rw [UInt32.toNat_toUInt8, UInt32.toNat_shiftRight, Nat.mod_eq_of_lt hn,
      Nat.shiftRight_eq_div_pow]
  show (((0 * 256 + (w >>> 24).toUInt8.toNat) * 256 + (w >>> 16).toUInt8.toNat) * 256 +
    (w >>> 8).toUInt8.toNat) * 256 + w.toUInt8.toNat = w.toNat
  rw [byte 24 (by decide), byte 16 (by decide), byte 8 (by decide), UInt32.toNat_toUInt8]
  show (((0 * 256 + w.toNat / 2 ^ 24 % 256) * 256 + w.toNat / 2 ^ 16 % 256) * 256 +
    w.toNat / 2 ^ 8 % 256) * 256 + w.toNat % 256 = w.toNat
  omega

/-- the state after a message of two blocks of bytes -/
def twice (x y : Nat) : State := compress (compress (ofState initial) x) y

theorem absorb_two (s : Sha256.State) {x y : Bytes} (hx : x.length = 64) (hy : y.length = 64) :
    ofState (absorb 2 s (x ++ y)) = compress (compress (ofState s) (big x)) (big y) := by
  have block : ∀ (s : Sha256.State) {bs : Bytes}, bs.length = 64 →
      compress (ofState s) (big bs) = ofState (Sha256.compress s (words bs)) := by
    intro s bs hbs
    obtain ⟨hlength, hpack⟩ := pack_words 16 bs hbs
    rw [← hpack, compress_ofState s (words bs) hlength]
  rw [block s hx, block _ hy, absorb, absorb, absorb, List.take_left' hx, List.drop_left' hx,
    List.take_of_length_le (Nat.le_of_eq hy)]

/-- The hash of a message of two blocks begins with the first word of the state. -/
theorem digest_plain {message x y : Bytes} (h : message ++ padding message.length = x ++ y)
    (hx : x.length = 64) (hy : y.length = 64) :
    big ((digest message).take 4) = (twice (big x) (big y)).a := by
  have hlength : (x ++ y).length / 64 = 2 := by
    rw [List.length_append, hx, hy]
  have hdigest : (digest message).take 4 = wordBytes (absorb 2 initial (x ++ y)).a := by
    rw [digest, h, hlength]
    rfl
  rw [hdigest, big_wordBytes, twice, ← absorb_two initial hx hy]
  rfl

end AccountLedger.Sha256.Plain
