import ZenithRelay.Foundations.Integers
import ZenithRelay.Foundations.Text

/-!
# Account tokens

Token sets of an account, its authentication state, what an exchange of a refresh
token brings, and the errors of the token authority.
-/

set_option autoImplicit false

namespace ZenithRelay.Accounts

inductive ReauthReason where
  | invalidGrant
  | reusedRefreshToken
  | expiredRefreshToken
  | invalidatedRefreshToken
  | accessTokenExpired
  | tokenRotationRecoveryRequired
  deriving DecidableEq, Repr

inductive AccountAuthState where
  | unknown
  | active
  | degradedAccessOnly
  | refreshing
  | error
  | requiresReauth (reason : ReauthReason)
  deriving DecidableEq, Repr

structure TokenRefresh where
  accessToken : String
  refreshToken : Option String
  idToken : Option String
  expiresAtMs : Option Nat
  deriving DecidableEq, Repr

structure TokenSet where
  accessToken : String
  refreshToken : Option String
  idToken : Option String
  expiresAtMs : Option Nat
  issuedAtMs : Nat
  generation : Nat
  deriving DecidableEq, Repr

def accessTokenIsUsable (expiresAtMs : Option Nat) (nowMs refreshSkewMs : Nat) : Bool :=
  expiresAtMs.all fun expiresAt => expiresAt > saturatingAdd u64Max nowMs refreshSkewMs

namespace TokenSet

/-- Early renewal needs a refresh grant; an access-only token keeps its full lifetime. -/
def isAccessUsable (tokens : TokenSet) (nowMs refreshSkewMs : Nat) : Bool :=
  accessTokenIsUsable tokens.expiresAtMs nowMs
    (if tokens.refreshToken.isSome then refreshSkewMs else 0)

/-- The set that an exchange of `refreshToken` brings; what it leaves out is kept. -/
def refreshed (tokens : TokenSet) (exchange : TokenRefresh) (refreshToken : String) (nowMs : Nat) :
    TokenSet where
  accessToken := exchange.accessToken
  refreshToken := exchange.refreshToken.or (some refreshToken)
  idToken := exchange.idToken.or tokens.idToken
  expiresAtMs := exchange.expiresAtMs
  issuedAtMs := nowMs
  generation := saturatingAdd u64Max tokens.generation 1

/-- The set after a refusal: expired now, under the next generation. -/
def invalidated (tokens : TokenSet) (nowMs : Nat) : TokenSet :=
  { tokens with
    expiresAtMs := some nowMs
    issuedAtMs := nowMs
    generation := saturatingAdd u64Max tokens.generation 1 }

end TokenSet

/-- `token_set_is_newer`: the first set has the later generation, or issue time. -/
def tokenSetIsNewer (existingTokens candidateTokens : TokenSet) : Bool :=
  existingTokens.generation > candidateTokens.generation ||
    (existingTokens.generation = candidateTokens.generation &&
      existingTokens.issuedAtMs > candidateTokens.issuedAtMs)

inductive TokenRefreshFailureKind where
  | invalidGrant
  | reusedRefreshToken
  | expiredRefreshToken
  | invalidatedRefreshToken
  | rotationRecoveryRequired
  | transient
  deriving DecidableEq, Repr

structure TokenRefreshFailure where
  kind : TokenRefreshFailureKind
  code : String
  deriving DecidableEq, Repr

/-- A concurrent rotation and a transient failure do not ask for a new login. -/
def TokenRefreshFailure.reauthReason (failure : TokenRefreshFailure) : Option ReauthReason :=
  match failure.kind with
  | .invalidGrant => some .invalidGrant
  | .reusedRefreshToken => none
  | .expiredRefreshToken => some .expiredRefreshToken
  | .invalidatedRefreshToken => some .invalidatedRefreshToken
  | .transient => none
  | .rotationRecoveryRequired => some .tokenRotationRecoveryRequired

inductive TokenAuthorityError where
  | invalidCapacity
  | invalidAccountId
  | capacityReached
  | accountNotFound
  | accessTokenExpired
  | requiresReauth (reason : ReauthReason)
  | refreshFailed (code : String)
  | persistenceRequired
  | persistenceFailed (code : String)
  deriving DecidableEq, Repr

end ZenithRelay.Accounts
