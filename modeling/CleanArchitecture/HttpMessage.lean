import CleanArchitecture.StandardLibrary

/-!
# HTTP requests and responses

The records that the parser fills, the connection completes and the request
handler reads and writes, with the default values of their members.
-/

namespace CleanArchitecture

structure Header where
  name : Bytes := []
  value : Bytes := []
  deriving DecidableEq

structure Cookie where
  name : Bytes := []
  value : Bytes := []
  path : Bytes := []
  domain : Bytes := []
  sameSite : Bytes := []
  maxAge : Int := -1
  secure : Bool := false
  httpOnly : Bool := false
  cookieValue : Bytes := []
  deriving DecidableEq

/-- The map from cookie names to values, as an association list. -/
abbrev CookieMap := List (Bytes × Bytes)

/-- `cookies[key] = value`. -/
def CookieMap.assign (cookies : CookieMap) (key value : Bytes) : CookieMap :=
  match cookies with
  | [] => [(key, value)]
  | (k, v) :: rest =>
      if k = key then (k, value) :: rest else (k, v) :: CookieMap.assign rest key value

structure Request where
  method : Bytes := []
  uri : Bytes := []
  httpVersionMajor : Int := 0
  httpVersionMinor : Int := 0
  contentLen : Int := -1
  contentType : Bytes := []
  body : Bytes := []
  sessionId : Bytes := []
  headers : List Header := []
  cookies : CookieMap := []
  deriving DecidableEq

inductive ContentTypeEnum
  | applicationJson
  | textHtml
  deriving DecidableEq

structure Response where
  status : Int := 200
  headers : List Header := []
  cookies : List Cookie := []
  content : Bytes := []
  contentLength : Bytes := ascii "0"
  contentType : ContentTypeEnum := .applicationJson
  deriving DecidableEq

def statusOk : Int := 200
def statusCreated : Int := 201
def statusAccepted : Int := 202
def statusNoContent : Int := 204
def statusMultipleChoices : Int := 300
def statusMovedPermanently : Int := 301
def statusMovedTemporarily : Int := 302
def statusNotModified : Int := 303
def statusBadRequest : Int := 400
def statusUnauthorized : Int := 401
def statusForbidden : Int := 403
def statusNotFound : Int := 404
def statusInternalServerError : Int := 500
def statusNotImplemented : Int := 501
def statusBadGateway : Int := 502
def statusServiceUnavailable : Int := 503

/-- A stock page: the same text with another title and heading. -/
def stockPage (title heading : String) : Bytes :=
  ascii "<html><head><title>" ++ ascii title ++ ascii "</title></head><body><h1>" ++
    ascii heading ++ ascii "</h1></body></html>"

/-- `stock_responses::to_string`. -/
def stockContent (status : Int) : Bytes :=
  if status = statusOk then []
  else if status = statusCreated then stockPage "Created" "201 Created"
  else if status = statusAccepted then stockPage "Accepted" "202 Accepted"
  else if status = statusNoContent then stockPage "No Content" "204 Content"
  else if status = statusMultipleChoices then
    stockPage "Multiple Choices" "300 Multiple Choices"
  else if status = statusMovedPermanently then
    stockPage "Moved Permanently" "301 Moved Permanently"
  else if status = statusMovedTemporarily then
    stockPage "Moved Temporarily" "302 Moved Temporarily"
  else if status = statusNotModified then stockPage "Not Modified" "304 Not Modified"
  else if status = statusBadRequest then stockPage "Bad Request" "400 Bad Request"
  else if status = statusUnauthorized then stockPage "Unauthorized" "401 Unauthorized"
  else if status = statusForbidden then stockPage "Forbidden" "403 Forbidden"
  else if status = statusNotFound then stockPage "Not Found" "404 Not Found"
  else if status = statusNotImplemented then stockPage "Not Implemented" "501 Not Implemented"
  else if status = statusBadGateway then stockPage "Bad Gateway" "502 Bad Gateway"
  else if status = statusServiceUnavailable then
    stockPage "Service Unavailable" "503 Service Unavailable"
  else stockPage "Internal Server Error" "500 Internal Server Error"

/-- `response::stock_response`. -/
def stockResponse (status : Int) : Response :=
  { status := status
    content := stockContent status
    headers :=
      [{ name := ascii "Content-Length", value := decimal (stockContent status).length },
       { name := ascii "Content-Type", value := ascii "text/html" }] }

end CleanArchitecture
