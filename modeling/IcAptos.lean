import IcAptos.Str
import IcAptos.Hex
import IcAptos.AccountAddress.Basic
import IcAptos.AccountAddress.Numeral
import IcAptos.AccountAddress.Special
import IcAptos.AccountAddress.Parse
import IcAptos.AccountAddress.RoundTrip
import IcAptos.AccountAddress.Errors
import IcAptos.AccountAddress.Canonical
import IcAptos.Crypto
import IcAptos.AuthenticationKey
import IcAptos.Authenticator
import IcAptos.Transaction.Basic
import IcAptos.Transaction.Caches
