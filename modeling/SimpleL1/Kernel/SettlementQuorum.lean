import SimpleL1.Kernel.SettlementPacket

/-!
# The settlement quorum

The loop over the signatures counts an entry every time it verifies, so that one
signature can make up a quorum by itself. Which signatures verify is the platform's
business; for one packet the count is sound under every verification just when the
packet repeats none, or the quorum is one, or no count can reach it.
-/

namespace SimpleL1.Kernel.Settlement

open SimpleL1.Lib.Repeats

variable {p : Platform} {verify : Verify} {env : Environment} {packet : Entries} {r : Read} {x : Presented}

/-- What lets a packet through when signatures are asked for. -/
theorem authorize_eq_ok (h : env.allowUnsigned = false) :
    authorize p verify env packet = .ok r ↔
      readPacket p env packet = .ok r ∧ ∃ x, present env r = .ok x ∧
        env.quorum ≤ x.signatures.countP (verifies verify env r x) := by
  unfold authorize
  cases hread : readPacket p env packet with
  | error e => exact ⟨nofun, fun h => nomatch h.1⟩
  | ok r' =>
    show (if env.allowUnsigned then Except.ok r' else _) = _ ↔ _
    rw [h, if_neg (by decide)]
    cases hpresent : present env r' with
    | error e =>
      refine ⟨nofun, ?_⟩
      rintro ⟨h', x, hx, -⟩
      cases h'
      exact nomatch hpresent.symm.trans hx
    | ok x =>
      show (if countValid (verifies verify env r' x) x.signatures < env.quorum then Except.error _
        else Except.ok r') = _ ↔ _
      rw [countValid_eq]
      split
      · rename_i hlt
        refine ⟨nofun, ?_⟩
        rintro ⟨h', x', hx, hle⟩
        cases h'
        cases hpresent.symm.trans hx
        omega
      · rename_i hle
        constructor
        · intro h'
          cases h'
          exact ⟨rfl, x, hpresent, Nat.le_of_not_lt hle⟩
        · rintro ⟨h', -⟩
          cases h'
          rfl

/-- A packet that is let through carries as many different signatures that verify. -/
def CountsDistinct (p : Platform) (verify : Verify) (env : Environment) (packet : Entries) : Prop :=
  ∀ r x, authorize p verify env packet = .ok r → present env r = .ok x →
    env.quorum ≤ (distinct (verifies verify env r x) x.signatures).length

theorem countsDistinct_iff (h : env.allowUnsigned = false) :
    CountsDistinct p verify env packet ↔
      ∀ r x, readPacket p env packet = .ok r → present env r = .ok x →
        Honest (verifies verify env r x) env.quorum x.signatures := by
  constructor
  · intro hcounts r x hread hpresent hreach
    exact hcounts r x ((authorize_eq_ok h).mpr ⟨hread, x, hpresent, hreach⟩) hpresent
  · intro hhonest r x hok hpresent
    obtain ⟨hread, x', hpresent', hreach⟩ := (authorize_eq_ok h).mp hok
    cases hpresent.symm.trans hpresent'
    exact hhonest r x hread hpresent hreach

/-- The packets whose quorum is sound whatever verifies. -/
theorem countsDistinct_forall_iff (h : env.allowUnsigned = false) :
    (∀ verify, CountsDistinct p verify env packet) ↔
      ∀ r x, readPacket p env packet = .ok r → present env r = .ok x →
        env.quorum = 1 ∨ x.signatures.Nodup ∨ x.signatures.length < env.quorum := by
  constructor
  · intro hall r x hread hpresent
    refine (honest_iff (one_le_quorum env)).mp fun accepts => ?_
    -- A predicate on signatures is a verification that reads neither text nor key.
    exact (countsDistinct_iff h).mp (hall fun _ sig _ => accepts sig) r x hread hpresent
  · intro hsound verify
    refine (countsDistinct_iff h).mpr fun r x hread hpresent => ?_
    exact (honest_iff (one_le_quorum env)).mpr (hsound r x hread hpresent) _

section Example

/-- A platform that hashes nothing and prints as little. -/
def bare : Platform where
  sha256 := id
  jsonText s := s
  jsonFloat _ := none
  floatText _ := ""
  numberFormat _ := none

def twoOfThem : Environment where
  allowUnsigned := false
  quorumSetting := 2
  domain := "MPO_SETTLE_V1|"
  mpoKeys := [⟨"mpo-dev-key-1", .str "aa", true⟩]

def signedWith (signatures : List String) : Entries :=
  [("payload", .array [("key_id", .str "mpo-dev-key-1"), ("fiat_payment_id", .str "pi_1"),
    ("nonce", .str "n"), ("user_id", .str "alice"),
    ("intent", .array [("merchant_id", .str "shop"), ("amount_fiat", .int 5), ("currency", .str "USD")])]),
   ("signatures", .array (signatures.map fun s => ("", .str s)))]

/-- One signature, sent twice, is a quorum of two. -/
theorem one_signature_twice :
    ¬ ∀ p verify env packet, env.allowUnsigned = false → CountsDistinct p verify env packet := by
  intro h
  have hcounts := h bare (fun _ _ _ => true) twoOfThem (signedWith ["sig", "sig"]) rfl
  exact absurd (hcounts _ _ rfl rfl) (by decide)

theorem two_signatures :
    (∀ verify, CountsDistinct bare verify twoOfThem (signedWith ["sig", "gis"])) ↔
      ∀ r x, readPacket bare twoOfThem (signedWith ["sig", "gis"]) = .ok r →
        present twoOfThem r = .ok x →
        twoOfThem.quorum = 1 ∨ x.signatures.Nodup ∨ x.signatures.length < twoOfThem.quorum :=
  countsDistinct_forall_iff rfl

end Example

end SimpleL1.Kernel.Settlement
