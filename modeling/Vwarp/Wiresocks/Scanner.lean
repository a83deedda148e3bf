import Vwarp.IpScanner.Scanner

/-!
# `RunScan`: the endpoints a user asks for

`RunScan` splits the user's text at commas and sorts each entry into a prefix or a custom
endpoint; what it cannot read is an error.  The endpoints are handed to the scanner as
text and read again there, with other functions: the port of an entry is checked with
`Atoi` here and read with `ParseUint` there.
-/

namespace Vwarp.Wiresocks

open Vwarp.Go Vwarp.Lib Vwarp.IpScanner

/-- The fields of `ScanOptions` that decide what is scanned. -/
structure ScanOptions where
  endpoints : Bytes
  v4 : Bool
  v6 : Bool

/-- What `RunScan` makes of an entry. -/
inductive ScanEntry
  | cidr (p : Prefix)
  | endpoint (text : Bytes)

/-- The entries of the text: its parts without the space around them, blank ones skipped. -/
def entries (endpoints : Bytes) : List Bytes :=
  ((split (ch ',') endpoints).map trimSpace).filter (· ≠ [])

/-- One round of the loop of `RunScan`. -/
def parseEntry (trimmedPart : Bytes) : Except Bytes ScanEntry :=
  match parsePrefix trimmedPart with
  | some p => .ok (.cidr p)
  | none =>
    match splitHostPort trimmedPart with
    | some (_, portStr) =>
      match atoi portStr with
      | some port =>
        if port < 0 ∨ 65535 < port then .error (str "invalid port number: " ++ portStr)
        else .ok (.endpoint trimmedPart)
      | none => .error (str "invalid port number: " ++ portStr)
    | none =>
      if (parseAddr trimmedPart).isSome then
        .ok (.endpoint (joinHostPort trimmedPart (str "0")))
      else if ch '.' ∈ trimmedPart ∧ ch '/' ∉ trimmedPart ∧ ch ':' ∉ trimmedPart then
        .ok (.endpoint (joinHostPort trimmedPart (str "0")))
      else .error (str "invalid endpoint format: " ++ trimmedPart)

/-- The loop of `RunScan`, up to its first error. -/
def parseEndpoints (endpoints : Bytes) : Except Bytes (List ScanEntry) :=
  (entries endpoints).mapM parseEntry

/-- `warp.WarpPrefixes`. -/
def warpPrefixes : List Prefix :=
  ["162.159.192.0/24", "162.159.195.0/24", "188.114.96.0/24", "188.114.97.0/24", "188.114.98.0/24",
    "188.114.99.0/24", "2606:4700:d0::/64", "2606:4700:d1::/64"].map mustParsePrefix

/-- The option of an entry.  `lookup` is what the resolver answers when it is applied. -/
def ScanEntry.option (lookup : Lookup) : ScanEntry → ScannerOptions → ScannerOptions
  | cidr p => ScannerOptions.withAppendCidrList p
  | endpoint text => ScannerOptions.withAppendCustomEndpoint lookup text

/-- The scanner of `RunScan`, or its error.  The resolver may answer anew for each entry:
`lookup i` is for entry `i`. -/
def runScanner (opts : ScanOptions) (lookup : Nat → Lookup) : Except Bytes ScannerOptions :=
  let scannerOptions := [ScannerOptions.withUseIPv4 opts.v4, ScannerOptions.withUseIPv6 opts.v6,
    ScannerOptions.withBucketSize 1]
  if opts.endpoints = [] then
    .ok (newScanner (scannerOptions ++ [ScannerOptions.withCidrList warpPrefixes]))
  else
    (parseEndpoints opts.endpoints).map fun es ↦
      newScanner (scannerOptions ++ es.zipIdx.map fun (e, i) ↦ e.option (lookup i))

/-- The options of the engine in `RunScan`. -/
def engineOptions : Engine.Options where
  icmpPing := false
  tcpPing := true
  concurrentScanners := 10
  stopOnFirstGoodIPs := 1
  ipQueueSize := 0xffff
  port := 2408

end Vwarp.Wiresocks
