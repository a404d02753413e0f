/-!
# Version words of extended keys

An extended key starts with a word that tells its kind and whether it is public or private.
-/

namespace WalletKeys

/-- The version words of the public and the private form. -/
structure KeyVersions where
  publicWord : UInt32
  privateWord : UInt32
  deriving DecidableEq, Repr

namespace KeyVersions

/-- The two words differ, so that a word tells which form it begins. -/
def Distinct (versions : KeyVersions) : Prop :=
  versions.publicWord ≠ versions.privateWord

def xpub : KeyVersions := ⟨0x0488b21e, 0x0488ade4⟩
def ypub : KeyVersions := ⟨0x049d7cb2, 0x049d7878⟩
def zpub : KeyVersions := ⟨0x04b24746, 0x04b2430c⟩
def ypubMultisig : KeyVersions := ⟨0x0295b43f, 0x0295b005⟩
def zpubMultisig : KeyVersions := ⟨0x02aa7ed3, 0x02aa7a99⟩

def tpub : KeyVersions := ⟨0x043587cf, 0x04358394⟩
def upub : KeyVersions := ⟨0x044a5262, 0x044a4e28⟩
def vpub : KeyVersions := ⟨0x045f1cf6, 0x045f18bc⟩
def upubMultisig : KeyVersions := ⟨0x024289ef, 0x024285b5⟩
def vpubMultisig : KeyVersions := ⟨0x02575483, 0x02575048⟩

def ltub : KeyVersions := ⟨0x019da462, 0x019d9cfe⟩
def mtub : KeyVersions := ⟨0x01b26ef6, 0x01b26792⟩
def ttub : KeyVersions := ⟨0x0436f6e1, 0x0436ef7d⟩
def dgub : KeyVersions := ⟨0x02facafd, 0x02fac398⟩

end KeyVersions

end WalletKeys
