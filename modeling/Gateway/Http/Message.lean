import Gateway.Document
import Gateway.Http.Header
import Gateway.Http.Uri

/-!
Requests and responses, and what happens to a response on its way out: it gets the id of its
request, loses a body that its status or the method forbids, and says whether the connection
stays.
-/
namespace Gateway.Http

inductive Version where
  | v10
  | v11
  deriving DecidableEq, Repr

structure Request where
  method : String := "GET"
  target : Uri
  version : Version := .v11
  headers : Headers := {}
  deriving DecidableEq, Repr

inductive Body where
  | text (s : String)
  | document (d : Document)
  deriving Repr

structure Response where
  status : Nat
  headers : Headers := {}
  body : Body := .text ""
  deriving Repr

def reason? (status : Nat) : Option String :=
  List.lookup status [
    (100, "Continue"), (101, "Switching Protocols"), (102, "Processing"), (103, "Early Hints"),
    (200, "OK"), (201, "Created"), (202, "Accepted"), (203, "Non Authoritative Information"),
    (204, "No Content"), (205, "Reset Content"), (206, "Partial Content"), (207, "Multi-Status"),
    (208, "Already Reported"), (226, "IM Used"),
    (300, "Multiple Choices"), (301, "Moved Permanently"), (302, "Found"), (303, "See Other"),
    (304, "Not Modified"), (305, "Use Proxy"), (307, "Temporary Redirect"),
    (308, "Permanent Redirect"),
    (400, "Bad Request"), (401, "Unauthorized"), (402, "Payment Required"), (403, "Forbidden"),
    (404, "Not Found"), (405, "Method Not Allowed"), (406, "Not Acceptable"),
    (407, "Proxy Authentication Required"), (408, "Request Timeout"), (409, "Conflict"),
    (410, "Gone"), (411, "Length Required"), (412, "Precondition Failed"),
    (413, "Payload Too Large"), (414, "URI Too Long"), (415, "Unsupported Media Type"),
    (416, "Range Not Satisfiable"), (417, "Expectation Failed"), (418, "I'm a teapot"),
    (421, "Misdirected Request"), (422, "Unprocessable Entity"), (423, "Locked"),
    (424, "Failed Dependency"), (425, "Too Early"), (426, "Upgrade Required"),
    (428, "Precondition Required"), (429, "Too Many Requests"),
    (431, "Request Header Fields Too Large"), (451, "Unavailable For Legal Reasons"),
    (500, "Internal Server Error"), (501, "Not Implemented"), (502, "Bad Gateway"),
    (503, "Service Unavailable"), (504, "Gateway Timeout"), (505, "HTTP Version Not Supported"),
    (506, "Variant Also Negotiates"), (507, "Insufficient Storage"), (508, "Loop Detected"),
    (510, "Not Extended"), (511, "Network Authentication Required")]

def statusLine (status : Nat) : String :=
  toString status ++ " " ++ (reason? status).getD "<unknown status code>"

/-- A status that a response can have; others stand for a service that is not available. -/
def statusOr503 (status : Nat) : Nat := if 100 ≤ status ∧ status ≤ 999 then status else 503

namespace Request

def hasConnectionOption (r : Request) (option : String) : Bool :=
  (r.headers.valuesOf "connection").any fun value =>
    match valueText? value with
    | none => false
    | some s => (s.toList.splitOn ',').any fun word =>
        String.ofList ((Text.trimBy Char.isWhitespace word).map Char.toLower) == option

def idHeader : String := "x-request-id"

end Request

namespace Response

def field (name value : String) : Field := ⟨name, Text.bytes value⟩

def plain (status : Nat) (s : String) : Response where
  status := status
  headers := ⟨[field "content-type" "text/plain; charset=utf-8"]⟩
  body := .text s

def ofDocument (d : Document) : Response where
  status := 200
  headers := ⟨[field "content-type" "application/json"]⟩
  body := .document d

def replaceField (r : Response) (f : Field) : Response :=
  { r with headers := r.headers.extend ⟨[f]⟩ }

/-- Gives the response the id of its request, unless it has one of its own. -/
def withId (r : Response) (id : List UInt8) : Response :=
  if r.headers.contains Request.idHeader then r
  else { r with headers := r.headers.append ⟨Request.idHeader, id⟩ }

/-- A body may not be sent with this status or to this method. -/
def forbidsBody (method : String) (status : Nat) : Bool :=
  method == "HEAD" || status < 200 || status == 204 || status == 304

/-- The response as it is written. A preliminary status is not for an answer. -/
def transmit (r : Response) (request : Request) : Response :=
  let r := if r.status < 200 ∧ r.status ≠ 101 then { status := 500 } else r
  let r := if forbidsBody request.method r.status then { r with body := .text "" } else r
  match request.version with
  | .v11 =>
    if request.hasConnectionOption "close" then r.replaceField (field "connection" "close") else r
  | .v10 =>
    if request.hasConnectionOption "keep-alive" then
      r.replaceField (field "connection" "keep-alive")
    else r

def unreadable : Response := { status := 400, headers := ⟨[field "connection" "close"]⟩ }

end Response
end Gateway.Http
