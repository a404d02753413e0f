import WalletKeys.Main
import WalletKeys.Proofs.Ecdsa.Agreement
import WalletKeys.Proofs.Hd.Derivation
import WalletKeys.Proofs.Secp256k1.AffineLaw
import WalletKeys.Proofs.SignedMessage
import WalletKeys.Proofs.Codec.Base58
import WalletKeys.Proofs.Hd.Text
import WalletKeys.Proofs.Hd.Path
import WalletKeys.Proofs.Hd.Place
import WalletKeys.Proofs.Hd.Tree
import WalletKeys.Proofs.Key.Public
import WalletKeys.Proofs.Key.Private
import WalletKeys.Proofs.Key.Wif
import WalletKeys.Proofs.ObtainedPoint
import WalletKeys.Proofs.Hd.Session
import WalletKeys.Proofs.Codec.Base32
import WalletKeys.Proofs.Codec.Checksum
import WalletKeys.Proofs.Codec.Segwit
import WalletKeys.Proofs.Codec.CashAddr
import WalletKeys.Proofs.Codec.BurstErrors
import WalletKeys.Proofs.OwnedAddress
import WalletKeys.Proofs.AddressSeparation
import WalletKeys.Proofs.Codec.TagSeparation
import WalletKeys.Proofs.Codec.WordStream
import WalletKeys.Proofs.Codec.BitGroups
import WalletKeys.Proofs.AddressCommitment
import WalletKeys.Proofs.Ecdsa.Opposite
import WalletKeys.Proofs.CommandLine.Derived
import WalletKeys.Proofs.Checked.Reader
import WalletKeys.Proofs.Roots
import WalletKeys.Proofs.Ecdsa.NonceDraws
import WalletKeys.Proofs.MessageFrame
