import AccountLedger.Proofs.Digest
import AccountLedger.Proofs.Escrow.Opening
import AccountLedger.Swap.Pool
/-!
# Nobody else speaks for the vault

The swap program presents the seed of its own vaults with a bump of the caller's choice.  Whichever
bump this is, the hash that is tried as an address begins otherwise than the authority of the escrow,
so the swap program moves nothing out of the escrow's vault.

* `foreign_first`: the first words of these hashes, by evaluation;
* `create_ne_authority`: none of these addresses is the authority.
-/

namespace AccountLedger.Escrow

open Sha256.Plain (big big_append twice)

/-- the swap program's key and the seed of its vaults -/
def seeded : Nat :=
  0x8daeed38870339b3141cfe9b2d44ab6be404d4d6cf595679e5ea64426027c44f * 256 ^ 15 +
    0x7661756c742d617574686f72697479

/-- the first block that is hashed for a bump, which ends with the beginning of the marker -/
def foreignBlock (bump : Nat) : Nat :=
  (seeded * 256 + bump) * 256 ^ 16 + 0x50726f6772616d446572697665644164

/-- the second block: the end of the marker and the padding of 69 bytes -/
def foreignRest : Nat :=
  0x6472657373800000000000000000000000000000000000000000000000000000 * 256 ^ 32 + 0x228

theorem foreign_first : ∀ bump < 256, (twice (foreignBlock bump) foreignRest).a ≠ 0x41ee5d12 := by
  decide +kernel

theorem preimage_blocks (bump : UInt8) :
    let message := Address.preimage Swap.key [Swap.vaultSeed] bump
    ∃ x y : Bytes, message ++ Sha256.padding message.length = x ++ y ∧ x.length = 64 ∧
      y.length = 64 ∧ big x = foreignBlock bump.toNat ∧ big y = foreignRest := by
  intro message
  let front := Swap.key.bytes ++ Text.bytes Swap.vaultSeed
  let back := Address.marker.take 16
  let rest := Address.marker.drop 16 ++ Sha256.padding 69
  have lengths : front.length = 47 ∧ back.length = 16 ∧ rest.length = 64 ∧
      Address.marker.length = 21 := by
    decide +kernel
  have numbers : big front = seeded ∧ big back = 0x50726f6772616d446572697665644164 ∧
      big rest = foreignRest := by
    decide +kernel
  obtain ⟨hfront, hback, hrest, hmarker⟩ := lengths
  have hmessage : message = front ++ [bump] ++ Address.marker := by
    rw [show message = Address.preimage Swap.key [Swap.vaultSeed] bump from rfl, Address.preimage,
      List.flatMap_singleton]
  have hlength : message.length = 69 := by
    rw [hmessage, List.length_append, List.length_append, hfront, hmarker]
    rfl
  refine ⟨front ++ [bump] ++ back, rest, ?_, ?_, hrest, ?_, numbers.2.2⟩
  · have hsplit : Address.marker = back ++ Address.marker.drop 16 :=
      (List.take_append_drop 16 Address.marker).symm
    rw [hlength, hmessage]
    simp only [rest, ← List.append_assoc]
    rw [List.append_assoc _ back, ← hsplit]
  · rw [List.length_append, List.length_append, hfront, hback]
    rfl
  · have hbig : big (front ++ [bump] ++ back) =
        (big front * 256 + bump.toNat) * 256 ^ 16 + big back := by
      rw [big_append, big_append, hback]
      show (big front * 256 ^ 1 + (0 * 256 + bump.toNat)) * 256 ^ 16 + big back = _
      rw [Nat.pow_one, Nat.zero_mul, Nat.zero_add]
    rw [hbig, numbers.1, numbers.2.1, foreignBlock]

/-- The authority of the escrow is no address of the seed of the swap program's vaults. -/
theorem create_ne_authority (bump : UInt8) :
    Address.create Swap.key [Swap.vaultSeed] bump ≠ .ok authority := by
  intro h
  obtain ⟨_, _, hkey⟩ := Address.create_eq_ok_iff.1 h
  obtain ⟨x, y, hblocks, hx, hy, hbigX, hbigY⟩ := preimage_blocks bump
  have hfirst : big (authority.bytes.take 4) = 0x41ee5d12 := by decide +kernel
  have hdigest := Sha256.Plain.digest_plain hblocks hx hy
  rw [hbigX, hbigY] at hdigest
  refine foreign_first bump.toNat bump.toNat_lt (hdigest.symm.trans ?_)
  rw [← hfirst, hkey]
  rfl

end AccountLedger.Escrow
