import Vouch.Basic
import Vouch.Attester.Types
import Vouch.Attester.AttestedMap
import Vouch.Attester.Attest
import Vouch.Attester.Single
import Vouch.Attester.Concurrent
import Vouch.Attester.Interlock
import Vouch.Attester.Eviction
import Vouch.BlockRelay.Registrations
import Vouch.Util.TimeDelayHack
