import AlertProbe.Foundations.HttpRequest
import AlertProbe.Model.Install

/-!
# The HTTP requests of the installer

`split_http_file`, `test_http_return`, `get`, `post` and `put` of the installer's
function file, in the branches in which the client is `openssl`, `telnet` or
`netcat`: there the functions print the request themselves and take the response
apart with `sed` and `head`.  With `curl` that is left to `curl`.

`EXIT_ON_ERROR` is 1, so `test_http_return` ends the installer when it objects.
-/

namespace AlertProbe

open Foundations

/-! ## split_http_file -/

/-- `/^\r*$/`, on a line with its newline. -/
def blankLine (line : CString) : Bool :=
  line.all fun b => b == carriageReturn || b == newline

/-- The files `${1}_header` and `$1`. -/
structure HttpFiles where
  header : CString
  body : CString
deriving DecidableEq, Repr

/-- `grep -q 'Transfer-Encoding: chunked' ${1}_header`. -/
def chunked (header : CString) : Bool :=
  (textLines newline header).any (hasMatch (ascii "Transfer-Encoding: chunked"))

/-- `sed '1,/^\r*$/d' ${1}_tmp | head -n -3 > ${1}` and `sed -i '1,1d' ${1}`. -/
def unchunk (tmp : CString) : CString :=
  onLines newline List.tail
    (onLines newline (List.rdrop · 3) (onLines newline (behindRange blankLine) tmp))

/-- `split_http_file`, on the bytes of `${1}_tmp`. -/
def split_http_file (tmp : CString) : HttpFiles :=
  let header := onLines newline (through blankLine) tmp
  if chunked header then ⟨header, unchunk tmp⟩
  else ⟨header, onLines newline (behindRange blankLine) tmp⟩

/-! ## test_http_return -/

/-- The digits of the last ` \([0-9]*\) ` in a text. -/
def lastNumber : CString → Option CString
  | [] => none
  | b :: rest =>
      match lastNumber rest with
      | some digits => some digits
      | none =>
          if b = blank ∧ (rest.dropWhile isDigit).head? = some blank then
            some (rest.takeWhile isDigit)
          else none

/-- `s/HTTP\/.* \([0-9]*\) .*/\1/`. -/
def statusNumber : CString → CString
  | [] => []
  | b :: rest =>
      if (ascii "HTTP/").isPrefixOf (b :: rest) then
        match lastNumber ((b :: rest).drop 5) with
        | some digits => digits
        | none => b :: statusNumber rest
      else b :: statusNumber rest

/-- `grep "HTTP/" "$2"`, on the bytes of the file of the given name. -/
def grepStatus (host : Host) (name header : CString) : List CString :=
  if host.binary header then
    if (linesOf newline header).any (hasMatch (ascii "HTTP/")) then host.binaryMatches name
    else []
  else (linesOf newline header).filter (hasMatch (ascii "HTTP/"))

/-- The value of `HTTP_CODE`. -/
def HTTP_CODE (host : Host) (name header : CString) : CString :=
  commandSubstitution (unlines newline ((grepStatus host name header).map fun line =>
    (Substitution.single blank []).apply (statusNumber line)))

/-- `grep "^[ [:digit:] ]*$"`. -/
def grepDigits (host : Host) (input : CString) : List CString :=
  let matching := (linesOf newline input).filter
    (List.all · fun b => isDigit b || b == blank)
  if host.binary input then
    if matching = [] then [] else host.binaryMatches (ascii "(standard input)")
  else matching

/-- `[ "$(echo $HTTP_CODE | grep "^[ [:digit:] ]*$")" ]`. -/
def testDigits (host : Host) (files : List CString) (code : CString) : Bool :=
  commandSubstitution (unlines newline (grepDigits host (echo (words host files code)))) != []

/-- `[ $HTTP_CODE -lt 200 -o $HTTP_CODE -ge 300 ]`. -/
def testRange (host : Host) (code : List CString) : Bool :=
  match code.map natural with
  | [some (n, [])] =>
      if n < 2 ^ 63 then n < 200 || 300 ≤ n
      else host.test (code ++ [ascii "-lt", ascii "200", ascii "-o"] ++ code ++
        [ascii "-ge", ascii "300"])
  | _ =>
      host.test (code ++ [ascii "-lt", ascii "200", ascii "-o"] ++ code ++
        [ascii "-ge", ascii "300"])

/-- `test_http_return`: whether it comes back; otherwise it has ended the installer. -/
def test_http_return (host : Host) (files : List CString) (name header : CString) : Bool :=
  let code := HTTP_CODE host name header
  if testDigits host files code then !testRange host (words host files code) else false

/-! ## get, post and put -/

/-- What `get` prints for its client.  The line ends are those of `netcat`, or those of the other
clients. -/
def getRequest (lineEnd : LineEnd) (path query API_HOST : CString) : CString :=
  ascii "GET " ++ path ++ ascii "?" ++ query ++ ascii " HTTP/1.1" ++ lineEnd.text ++
    ascii "Host: " ++ API_HOST ++ lineEnd.text ++
    ascii "Connection: close" ++ lineEnd.text ++ lineEnd.text

/-- `$(echo $3 | wc -m)`, where `wc_m` counts the characters of a text. -/
def contentLength (host : Host) (files : List CString) (wc_m : CString → Nat) (json : CString) :
    CString :=
  commandSubstitution (decimalNat (wc_m (echo (words host files json))) ++ [newline])

/-- What `post` and `put` print for their client. -/
def sendRequest (method : String) (lineEnd : LineEnd) (path query API_HOST length json : CString) :
    CString :=
  ascii method ++ ascii " " ++ path ++ ascii "?" ++ query ++ ascii " HTTP/1.1" ++ lineEnd.text ++
    ascii "Host: " ++ API_HOST ++ lineEnd.text ++
    ascii "Content-Type: application/json; charset=utf-8" ++ lineEnd.text ++
    ascii "Content-length: " ++ length ++ lineEnd.text ++
    ascii "Connection: close" ++ lineEnd.text ++ lineEnd.text ++
    json ++ lineEnd.text

/-- The request of `post`. -/
def postRequest (host : Host) (files : List CString) (wc_m : CString → Nat) (lineEnd : LineEnd)
    (path query API_HOST json : CString) : CString :=
  sendRequest "POST" lineEnd path query API_HOST (contentLength host files wc_m json) json

/-- The request of `put`. -/
def putRequest (host : Host) (files : List CString) (wc_m : CString → Nat) (lineEnd : LineEnd)
    (path query API_HOST json : CString) : CString :=
  sendRequest "PUT" lineEnd path query API_HOST (contentLength host files wc_m json) json

/-- What `get`, `post` and `put` do with the bytes that the client has printed: the file `name`
that they leave, unless they have ended the installer. -/
def receive (host : Host) (files : List CString) (name tmp : CString) : Option CString :=
  let response := split_http_file tmp
  if test_http_return host files (name ++ ascii "_header") response.header then
    some response.body
  else none

/-! ## The requests of the installer -/

/-- The variables that the requests are made of. -/
structure Variables where
  ASSET_ID : Nat
  PROBE_ID : Nat
  API_HOST : CString
  HOST_ARCH : CString
  HOST_DISTRIB : CString
  DISTRIB_RELEASE : CString

/-- `"login=$LOGIN_ENC&password=$PASSWORD_ENC"`. -/
def credentialQuery (LOGIN PASSWORD : CString) : CString :=
  ascii "login=" ++ encode_url LOGIN ++ ascii "&password=" ++ encode_url PASSWORD

/-- The JSON text that the asset is updated with. -/
def Variables.assetJson (v : Variables) : CString :=
  ascii "\x7b\"architecture\":\"" ++ v.HOST_ARCH ++
    ascii "\",\"distribution\":\"" ++ v.HOST_DISTRIB ++
    ascii "\",\"release\":\"" ++ v.DISTRIB_RELEASE ++ ascii "\"\x7d"

/-- `put "/assets/$ASSET_ID"`, in the empty directory `$TMP_DIR`. -/
def updateAsset (host : Host) (wc_m : CString → Nat) (lineEnd : LineEnd) (v : Variables)
    (LOGIN PASSWORD : CString) : CString :=
  putRequest host [] wc_m lineEnd (ascii "/assets/" ++ decimalNat v.ASSET_ID)
    (credentialQuery LOGIN PASSWORD) v.API_HOST v.assetJson

/-- `get "/probes/$PROBE_ID/packages"`. -/
def getPackages (lineEnd : LineEnd) (v : Variables) (LOGIN PASSWORD : CString) : CString :=
  getRequest lineEnd (ascii "/probes/" ++ decimalNat v.PROBE_ID ++ ascii "/packages")
    (credentialQuery LOGIN PASSWORD) v.API_HOST

/-- `get "/probes/$PROBE_ID/json"`. -/
def getInformations (lineEnd : LineEnd) (v : Variables) (LOGIN PASSWORD : CString) : CString :=
  getRequest lineEnd (ascii "/probes/" ++ decimalNat v.PROBE_ID ++ ascii "/json")
    (credentialQuery LOGIN PASSWORD) v.API_HOST

/-- The requests, in the order of the script. -/
def installerRequests (host : Host) (wc_m : CString → Nat) (lineEnd : LineEnd) (v : Variables)
    (LOGIN PASSWORD : CString) : List CString :=
  [updateAsset host wc_m lineEnd v LOGIN PASSWORD, getPackages lineEnd v LOGIN PASSWORD,
    getInformations lineEnd v LOGIN PASSWORD]

end AlertProbe
