/-
The base URL of a suite.

* `defaultBaseUrl`: the base URL where no request names a host;
* `baseUrl?`: scheme and authority of the first request that names one.
-/
import RequestSuite.Collection.Basic
import RequestSuite.Url.Split

namespace RequestSuite

/-- The base URL where no request names a host. -/
def defaultBaseUrl : String := "https://api.example.com"

/-- Scheme and authority of a URL that names a host. -/
def origin? (url : String) : Option String :=
  (Url.splitAbsolute? url.toList).map fun parts =>
    String.ofList (parts.scheme ++ "://".toList ++ parts.authority)

/-- Scheme and authority of the first request that names a host. -/
def baseUrl? (requests : List Request) : Option String :=
  requests.findSome? fun r => origin? r.url

/-- What is said where no request names a host. -/
def noBaseUrlMessage : String :=
  "Could not find a valid base URL in collection, using default " ++ defaultBaseUrl

end RequestSuite
