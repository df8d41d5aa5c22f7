import MercuryLayer.Client.LifeCycle
import MercuryLayer.Library.Runs

namespace MercuryLayer.Client.WalletRace

open Client.CoinSteps Client.LifeCycle Client.Operations Library.Matching Library.Monitors Library.Programs
open Library.Runs WalletData

variable {E K F : Type}

/-- Operations of the client that share the wallet file. Along each of them is noted the wallet that
it has read or saved last. -/
abbrev Clients (F : Type) : Type := Watched (Call F) Reply Unit Wallets (Option Wallet)

def start (wallets : Wallets) : Clients F := ⟨⟨wallets, []⟩, []⟩

/-- What an operation that is about to save the wallet has read or saved last. -/
def savesOver (s : Clients F) (i : ℕ) : Option Wallet :=
  match s.config.threads[i]?, s.notes[i]? with
  | some (.call (.sending (.updateWallet _)) _), some seen => seen
  | _, _ => none

/-- An operation that is about to save the wallet finds that in the file. -/
def Undisturbed (s : Clients F) : Event (Request F) (Oracle F) → Prop
  | .advance i _ => ∀ seen ∈ savesOver s i, s.config.store.get seen.name = some seen
  | _ => True

instance (s : Clients F) : (event : Event (Request F) (Oracle F)) → Decidable (Undisturbed s event)
  | .advance i _ => inferInstanceAs (Decidable (∀ seen ∈ savesOver s i, s.config.store.get seen.name = some seen))
  | .start _ => isTrue trivial
  | .stop _ => isTrue trivial

/-- A coin at any later time. -/
abbrev Later : Coin → Coin → Prop := Relation.ReflTransGen Steps

theorem advances_later_refl (s : Wallets) : Advances Later s s :=
  advances_refl (fun _ => Relation.ReflTransGen.refl) s

theorem advances_later_trans (a b c : Wallets) (h : Advances Later a b) (h' : Advances Later b c) :
    Advances Later a c :=
  h.trans (fun _ _ _ h h' => h.trans h') h'

section Runs

variable (kit : Kit E K F) [DecidableEq E] [Add F] [Sub F] [Mul F] [Div F] [NatCast F] [LT F] [DecidableLT F]

def step (s : Clients F) (event : Event (Request F) (Oracle F)) : Clients F :=
  s.step (program kit) handle ledger none event

variable {kit}

theorem followed_step (s : Clients F) (event : Event (Request F) (Oracle F)) (h : s.Followed ledger) :
    (step kit s event).Followed ledger :=
  h.step (fun request => orderly_program request none) event

/-- A call other than a save does nothing to the file, and a save that is not disturbed keeps every coin. -/
theorem advances_step (s : Clients F) (event : Event (Request F) (Oracle F)) (h : s.Followed ledger)
    (hevent : Undisturbed s event) : Advances Later s.config.store (step kit s event).config.store := by
  cases event with
  | start request => exact advances_later_refl _
  | stop i => exact advances_later_refl _
  | advance i choice =>
    obtain hsame | ⟨c, next, hp, hstep⟩ := step_advance_cases (program kit) handle s.config i choice
    · rw [step, Watched.step, hsame]
      exact advances_later_refl _
    · obtain ⟨seen, hseen, hallows⟩ := h.allows hp
      have hadvances : Advances Steps s.config.store (handle choice c s.config.store).2 := by
        obtain hoff | ⟨walletName, rfl⟩ | ⟨wallet, rfl⟩ := call_cases c
        · rw [handle_offWallet choice c s.config.store hoff]
          exact advances_refl steps_refl _
        · exact advances_refl steps_refl _
        · refine advances_handle choice _ s.config.store seen (fun old hold => ?_) hallows
          subst hold
          exact hevent old (by simp only [savesOver, hp, hseen, Option.mem_def])
      rw [step, Watched.step, hstep]
      exact hadvances.imp (fun _ _ h => Relation.ReflTransGen.single h)

/-- As long as no operation saves over what another one has saved, whatever has been saved at one
time is there at any later time. -/
theorem nothing_lost (wallets : Wallets) (earlier later : List (Event (Request F) (Oracle F)))
    (h : Guarded (step kit) Undisturbed (start wallets) (earlier ++ later)) :
    Advances Later (run (step kit) (start wallets) earlier).config.store
      (run (step kit) (start wallets) (earlier ++ later)).config.store := by
  have hfollowed : ∀ (s : Clients F) event, s.Followed ledger → Undisturbed s event →
      (step kit s event).Followed ledger :=
    fun s event hs _ => followed_step s event hs
  have hstart : (start wallets : Clients F).Followed ledger := List.Forall₂.nil
  obtain ⟨hearlier, hlater⟩ := guarded_append.mp h
  rw [run_append]
  exact related_run (R := fun s s' => Advances Later s.config.store s'.config.store)
    (fun s => advances_later_refl _) (fun _ _ _ => advances_later_trans _ _ _) hfollowed advances_step
    (invariant_run hfollowed hstart hearlier) hlater

end Runs

section Seven

open Client.Withdraw Musig.Session

def addressKit : Kit (Library.XOnlyCurve.Point (ZMod 7)) (ZMod 7) ℕ :=
  { sevenKit with
    derivation :=
      { generateNewKey := fun _ _ path change index => .ok ⟨3, seven.publicKey 3, "print", path, change, index⟩
        toWif := fun key _ => seven.wif.encode key
        xOnlyToStr := fun _ => "key"
        encodeScAddress := fun _ _ _ => .ok "address" } }

/-- A new address is made before the coins are updated. -/
def inTurn : List (Event (Request ℕ) (Oracle ℕ)) :=
  [.start (.newTransferAddress "wallet"), .advance 0 calm, .advance 0 calm, .start (.updateCoins "wallet"),
    .advance 1 calm, .advance 1 calm]

/-- A new address is made while the coins are updated. -/
def overlapping : List (Event (Request ℕ) (Oracle ℕ)) :=
  [.start (.updateCoins "wallet"), .start (.newTransferAddress "wallet"), .advance 0 calm, .advance 1 calm,
    .advance 1 calm]

def statusesAfter (events : List (Event (Request ℕ) (Oracle ℕ))) : List CoinStatus :=
  ((run (step addressKit) (start (walletsOf [])) events).config.store.rows.flatMap Wallet.coins).map Coin.status

theorem nothing_lost_seven :
    statusesAfter (inTurn.take 3) = [.initialised] ∧ statusesAfter inTurn = [.initialised] ∧
      Advances Later (run (step addressKit) (start (walletsOf [])) (inTurn.take 3)).config.store
        (run (step addressKit) (start (walletsOf [])) inTurn).config.store := by
  have hturn : Guarded (step addressKit) Undisturbed (start (walletsOf [])) (inTurn.take 3 ++ inTurn.drop 3) := by
    decide +kernel
  have hcoin : statusesAfter (inTurn.take 3) = [.initialised] ∧ statusesAfter inTurn = [.initialised] := by
    decide +kernel
  exact ⟨hcoin.1, hcoin.2, nothing_lost (walletsOf []) (inTurn.take 3) (inTurn.drop 3) hturn⟩

/-- The coin that the new address belongs to is saved, and gone once both operations have ended. -/
theorem pushed_coin_lost :
    statusesAfter overlapping = [.initialised] ∧ statusesAfter (overlapping ++ [.advance 0 calm]) = [] ∧
      (run (step addressKit) (start (walletsOf [])) (overlapping ++ [.advance 0 calm])).config.threads.all
        (fun p => p.next?.isNone) = true := by
  decide +kernel

end Seven

end MercuryLayer.Client.WalletRace
