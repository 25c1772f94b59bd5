import DoggyDns.Plugin.Chain

/-!
# The resolver-backed handlers

`NativeAuthority` asks the system resolver and skips whenever it got no answer;
`ForwardAuthority` asks configured upstreams and never skips: it keeps the
upstream's negative answers and turns any other failure into SERVFAIL.
-/

namespace DoggyDns

/-- A hickory resolver over backends in state `W`: answers, or why there are none. -/
abbrev Resolver (W : Type) := Name → RecordType → W → Except NetError (List Record) × W

section
variable {W : Type}

def nativeLookup (resolver : Resolver W) (name : Name) (rtype : RecordType) (w : W) :
    LookupControlFlow × W :=
  match resolver name rtype w with
  | (.ok answers, w) => (if answers.isEmpty then .skip else .continue (.ok (.resolved answers)), w)
  | (.error e, w) => (if e.isNxDomain || e.isNoRecordsFound then .skip else .skip, w)

/-- `NativeAuthority`. -/
def nativeAuthority (resolver : Resolver W) : ZoneHandler W where
  zoneType := .external
  origin := Name.root
  lookup := nativeLookup resolver

/-- Map a resolver failure to the DNS result it represents. -/
def classifyError (error : NetError) : ResponseCode × LookupError :=
  if error.isNxDomain then (.nxDomain, .responseCode .nxDomain)
  else if error.isNoRecordsFound then (.noError, .nameExists)
  else
    let code := match error with
      | .responseCode code => code
      | _ => .servFail
    (code, .responseCode code)

def forwardLookup (resolver : Resolver W) (name : Name) (rtype : RecordType) (w : W) :
    LookupControlFlow × W :=
  match resolver name rtype w with
  | (.ok answers, w) =>
    (if answers.length = 0 then .continue (.error .nameExists)
      else .continue (.ok (.resolved answers)), w)
  | (.error e, w) => (.continue (.error (classifyError e).2), w)

/-- `ForwardAuthority`. -/
def forwardAuthority (resolver : Resolver W) : ZoneHandler W where
  zoneType := .external
  origin := Name.root
  lookup := forwardLookup resolver

end

end DoggyDns
