import PyMesh.Storage.Database

/-! Join tokens. -/
namespace PyMesh

open Relational Resumption

namespace AuthManager

/-- `tokenStr` is what `secrets.token_urlsafe(32)` has drawn. -/
def createToken (tokenStr networkId description : String) (maxUses : Option Int) :
    Session String := do
  commit (Database.insertToken
    { token := tokenStr, networkId := networkId, description := description, maxUses := maxUses })
  return tokenStr

/-- `token_obj.max_uses is not None and token_obj.used_count >= token_obj.max_uses`. -/
def exhausted (t : AuthToken) : Bool :=
  match t.maxUses with
  | none => false
  | some maxUses => maxUses ≤ t.usedCount

/-- The value written back is computed from the row that was read. -/
def countUse (tokenObj : AuthToken) (row : AuthToken) : AuthToken :=
  { row with usedCount := tokenObj.usedCount + 1 }

def validateToken (tokenStr : String) : Session Bool := do
  match ← execute fun db => db.authTokens.find tokenStr with
  | none => return false
  | some tokenObj =>
    if exhausted tokenObj then return false
    commit (Database.updateToken tokenStr (countUse tokenObj))
    return true

end AuthManager

end PyMesh
