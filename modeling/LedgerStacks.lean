import LedgerStacks.Nom
import LedgerStacks.Signer
import LedgerStacks.Singlesig
import LedgerStacks.Multisig
import LedgerStacks.Condition
import LedgerStacks.Wire
import LedgerStacks.Canonical
import LedgerStacks.Errors
import LedgerStacks.Format
import LedgerStacks.RoundTrip
