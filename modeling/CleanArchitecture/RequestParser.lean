import CleanArchitecture.HttpMessage
import CleanArchitecture.IncrementalScan

/-!
# The request parser

A character-at-a-time state machine.  Every byte either is rejected, completes
the request head, or moves the machine on and extends the request record.
-/

namespace CleanArchitecture.RequestParser

inductive ResultType
  | good
  | bad
  | indeterminate
  deriving DecidableEq, Repr

inductive State
  | methodStart
  | method
  | uri
  | httpVersionH
  | httpVersionT1
  | httpVersionT2
  | httpVersionP
  | httpVersionSlash
  | httpVersionMajorStart
  | httpVersionMajor
  | httpVersionMinorStart
  | httpVersionMinor
  | expectingNewline1
  | headerLineStart
  | headerLws
  | headerName
  | spaceBeforeHeaderValue
  | headerValue
  | expectingNewline2
  | expectingNewline3
  deriving DecidableEq, Repr

def isChar (c : Int) : Bool :=
  0 ≤ c && c ≤ 127

def isCtl (c : Int) : Bool :=
  (0 ≤ c && c ≤ 31) || c == 127

/-- The separators that may not occur in a token; 92 and 34 are the backslash and
the double quote, 123 and 125 the braces. -/
def tspecials : Bytes :=
  ascii "()<>@,;:" ++ [92, 34] ++ ascii "/[]?=" ++ [123, 125] ++ ascii " \t"

def isTspecial (c : Int) : Bool :=
  tspecials.any (fun special => charToInt special == c)

def isDigit (c : Int) : Bool :=
  charToInt 48 ≤ c && c ≤ charToInt 57

/-- `v * 10 + input - '0'`, computed in an `int`. -/
def versionDigit (v : Int) (input : UInt8) : Int :=
  toInt32 (v * 10 + charToInt input - 48)

/-- `req.headers.back().name.push_back(input)`. -/
def pushName (headers : List Header) (input : UInt8) : List Header :=
  headers.modifyLast fun h => { h with name := h.name ++ [input] }

/-- `req.headers.back().value.push_back(input)`. -/
def pushValue (headers : List Header) (input : UInt8) : List Header :=
  headers.modifyLast fun h => { h with value := h.value ++ [input] }

/-! The codes of the characters the parser compares with. -/

@[simp] theorem toUInt8_space : ' '.toUInt8 = 32 := rfl
@[simp] theorem toUInt8_tab : '\t'.toUInt8 = 9 := rfl
@[simp] theorem toUInt8_cr : '\r'.toUInt8 = 13 := rfl
@[simp] theorem toUInt8_lf : '\n'.toUInt8 = 10 := rfl
@[simp] theorem toUInt8_colon : ':'.toUInt8 = 58 := rfl
@[simp] theorem toUInt8_slash : '/'.toUInt8 = 47 := rfl
@[simp] theorem toUInt8_dot : '.'.toUInt8 = 46 := rfl
@[simp] theorem toUInt8_H : 'H'.toUInt8 = 72 := rfl
@[simp] theorem toUInt8_T : 'T'.toUInt8 = 84 := rfl
@[simp] theorem toUInt8_P : 'P'.toUInt8 = 80 := rfl

/-- The test that rejects a byte of a method or a header name. -/
def notToken (input : UInt8) : Bool :=
  !isChar (charToInt input) || isCtl (charToInt input) || isTspecial (charToInt input)

open ResultType State

/-- One byte: the verdict, the next state and the extended request. -/
def consume (state : State) (req : Request) (input : UInt8) : ResultType × State × Request :=
  match state with
  | methodStart =>
      if notToken input then (bad, state, req)
      else (indeterminate, method, { req with method := req.method ++ [input] })
  | method =>
      if input = ' '.toUInt8 then (indeterminate, uri, req)
      else if notToken input then (bad, state, req)
      else (indeterminate, state, { req with method := req.method ++ [input] })
  | uri =>
      if input = ' '.toUInt8 then (indeterminate, httpVersionH, req)
      else if isCtl (charToInt input) then (bad, state, req)
      else (indeterminate, state, { req with uri := req.uri ++ [input] })
  | httpVersionH =>
      if input = 'H'.toUInt8 then (indeterminate, httpVersionT1, req) else (bad, state, req)
  | httpVersionT1 =>
      if input = 'T'.toUInt8 then (indeterminate, httpVersionT2, req) else (bad, state, req)
  | httpVersionT2 =>
      if input = 'T'.toUInt8 then (indeterminate, httpVersionP, req) else (bad, state, req)
  | httpVersionP =>
      if input = 'P'.toUInt8 then (indeterminate, httpVersionSlash, req) else (bad, state, req)
  | httpVersionSlash =>
      if input = '/'.toUInt8 then
        (indeterminate, httpVersionMajorStart,
          { req with httpVersionMajor := 0, httpVersionMinor := 0 })
      else (bad, state, req)
  | httpVersionMajorStart =>
      if isDigit (charToInt input) then
        (indeterminate, httpVersionMajor,
          { req with httpVersionMajor := versionDigit req.httpVersionMajor input })
      else (bad, state, req)
  | httpVersionMajor =>
      if input = '.'.toUInt8 then (indeterminate, httpVersionMinorStart, req)
      else if isDigit (charToInt input) then
        (indeterminate, state,
          { req with httpVersionMajor := versionDigit req.httpVersionMajor input })
      else (bad, state, req)
  | httpVersionMinorStart =>
      if isDigit (charToInt input) then
        (indeterminate, httpVersionMinor,
          { req with httpVersionMinor := versionDigit req.httpVersionMinor input })
      else (bad, state, req)
  | httpVersionMinor =>
      if input = '\r'.toUInt8 then (indeterminate, expectingNewline1, req)
      else if isDigit (charToInt input) then
        (indeterminate, state,
          { req with httpVersionMinor := versionDigit req.httpVersionMinor input })
      else (bad, state, req)
  | expectingNewline1 =>
      if input = '\n'.toUInt8 then (indeterminate, headerLineStart, req) else (bad, state, req)
  | headerLineStart =>
      if input = '\r'.toUInt8 then (indeterminate, expectingNewline3, req)
      else if !req.headers.isEmpty && (input == ' '.toUInt8 || input == '\t'.toUInt8) then
        (indeterminate, headerLws, req)
      else if notToken input then (bad, state, req)
      else
        (indeterminate, headerName,
          { req with headers := pushName (req.headers ++ [{}]) input })
  | headerLws =>
      if input = '\r'.toUInt8 then (indeterminate, expectingNewline2, req)
      else if input = ' '.toUInt8 ∨ input = '\t'.toUInt8 then (indeterminate, state, req)
      else if isCtl (charToInt input) then (bad, state, req)
      else (indeterminate, headerValue, { req with headers := pushValue req.headers input })
  | headerName =>
      if input = ':'.toUInt8 then (indeterminate, spaceBeforeHeaderValue, req)
      else if notToken input then (bad, state, req)
      else (indeterminate, state, { req with headers := pushName req.headers input })
  | spaceBeforeHeaderValue =>
      if input = ' '.toUInt8 then (indeterminate, headerValue, req) else (bad, state, req)
  | headerValue =>
      if input = '\r'.toUInt8 then (indeterminate, expectingNewline2, req)
      else if isCtl (charToInt input) then (bad, state, req)
      else (indeterminate, state, { req with headers := pushValue req.headers input })
  | expectingNewline2 =>
      if input = '\n'.toUInt8 then (indeterminate, headerLineStart, req) else (bad, state, req)
  | expectingNewline3 =>
      if input = '\n'.toUInt8 then (good, state, req) else (bad, state, req)

/-- The parser with the request it fills, as a scanner of bytes. -/
def scanner : Scanner (State × Request) UInt8 ResultType where
  step config input := consume config.1 config.2 input
  stops result := result == good || result == bad
  idle := indeterminate
  idle_continues := rfl

/-- `request_parser::parse` on a parser in `state`: the loop over the bytes
stops after the first one that is answered `good` or `bad`. -/
def parse (state : State) (req : Request) (input : Bytes) :
    ScanResult (State × Request) ResultType :=
  scanner.scan (state, req) input

example : (parse methodStart {} (ascii "GET / HTTP/1.1\r\n\r\nx")).verdict = good := by decide

end CleanArchitecture.RequestParser
