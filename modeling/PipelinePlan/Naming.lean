import PipelinePlan.Name
import PipelinePlan.Text.Words
import PipelinePlan.Transport

namespace PipelinePlan.Naming

/-- Every service that is bound to a step starts with this. -/
def serviceMark : String := "Process"

def serviceEnd : String := "Service"

/-- The one method of a service that is ever bound. -/
def remoteMethod : String := "remoteProcess"

def sideEffectMark : String := "SideEffect"

/-- What a service is about: its name without mark and end, if anything is left. -/
def serviceBase (service : String) : String :=
  let base := Text.dropSuffix serviceEnd (Text.dropPrefix serviceMark service)
  if base.isEmpty then service else base

/-- The service that a step is bound to unless it names another. -/
def serviceOfStep (step : String) : String :=
  serviceMark ++ Text.dropSuffix serviceEnd (Text.dropPrefix serviceMark (Text.pascal step)) ++
    serviceEnd

/-- A service name without the end, unless it is nothing else. -/
def clientStem (service : String) : String :=
  match Text.beforeSuffix? serviceEnd service with
  | some stem => if stem.isEmpty then service else stem
  | none => service

def client (space service : String) (transport : Transport) : String :=
  Name.qualify space (clientStem service ++ transport.adapterSuffix)

def sideEffect (space aspect type : String) (transport : Transport) : String :=
  Name.qualify space (Text.pascal aspect ++ Text.pascal (Name.bareType type) ++ sideEffectMark ++
    transport.adapterSuffix)

/-- Whether an identifier is spelled like one of a side effect. -/
def isSideEffect (identifier : String) : Bool :=
  Transport.all.any fun transport =>
    (Text.beforeSuffix? transport.adapterSuffix (Name.simple identifier)).any
      (Text.endsWith sideEffectMark)

def stepModule (service : String) : String := Text.kebab (serviceBase service) ++ "-svc"

/-- An aspect and a type as one name in small letters. -/
def sideEffectName (aspect type : String) : String :=
  Text.kebab aspect ++ "-" ++ Text.kebab (Name.bareType type)

def sideEffectModule (aspect type : String) : String := sideEffectName aspect type ++ "-svc"

def clientName (role name : String) : String := role ++ "-" ++ Text.kebab name

end PipelinePlan.Naming
