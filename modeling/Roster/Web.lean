/-!
# Requests and responses

The part of a web request that tracking reads, its cookies and its authenticated user, and the
part of a response that it writes.
-/

namespace Roster
namespace Web

structure Cookie where
  name : String
  value : String
  path : String
  /-- Without a value the cookie has no expiry. -/
  maxAgeSecs : Option Int
  comment : Option String
deriving Repr, DecidableEq

namespace Cookie

def siteWide (name value : String) : Cookie where
  name := name
  value := value
  path := "/"
  maxAgeSecs := none
  comment := some "Cluster User Tracking"

end Cookie

structure Request where
  cookies : List (String × String) := []
  user : Option String := none
deriving Repr, DecidableEq

namespace Request

def cookieValues (request : Request) (name : String) : List String :=
  (request.cookies.filter (·.1 = name)).map (·.2)

end Request

structure Response where
  committed : Bool := false
  cookies : List Cookie := []
deriving Repr, DecidableEq

namespace Response

def addCookie (response : Response) (cookie : Cookie) : Response :=
  { response with cookies := response.cookies ++ [cookie] }

def cookie? (response : Response) (name : String) : Option Cookie :=
  response.cookies.find? (·.name = name)

end Response
end Web
end Roster
