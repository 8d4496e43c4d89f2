import Turnpike.Dict
import Turnpike.Uuid

namespace Turnpike

namespace Label

def application := "application"
def instanceId := "instance"
def instanceIp := "ip"
def cloud := "cloud"
def region := "region"
def zone := "zone"
def cluster := "cluster"
def liveSpaceId := "liveSpaceId"
def ruleId := "ruleId"
def unit := "unit"
def cell := "cell"
def laneSpaceId := "laneSpaceId"
def lane := "lane"
def serviceGroup := "group"
def version := "version"
def agentVersion := "agentVersion"

end Label

structure Location where
  cloud : Option String := none
  region : Option String := none
  zone : Option String := none
  cluster : Option String := none
  ip : Option String := none
  liveSpaceId : Option String := none
  unitRuleId : Option String := none
  unit : Option String := none
  cell : Option String := none
  laneSpaceId : Option String := none
  lane : Option String := none
  deriving DecidableEq

structure AppService where
  name : Option String := none
  group : Option String := none
  metadata : Dict String String := .empty
  deriving DecidableEq

structure Application where
  name : String
  /-- `none` stands for an identifier that is drawn when the application is set up. -/
  instanceId : Option InstanceId
  service : Option AppService := none
  location : Option Location := none
  metadata : Dict String String := .empty
  deriving DecidableEq

namespace Location

def isLiveless (l : Location) : Bool := (l.liveSpaceId.getD "").isEmpty

def isLaneless (l : Location) : Bool := (l.laneSpaceId.getD "").isEmpty

instance : ToJson Location where
  toJson l := .obj [
    ("cloud", toJson l.cloud), ("region", toJson l.region), ("zone", toJson l.zone),
    ("cluster", toJson l.cluster), ("ip", toJson l.ip), ("liveSpaceId", toJson l.liveSpaceId),
    ("unitRuleId", toJson l.unitRuleId), ("unit", toJson l.unit), ("cell", toJson l.cell),
    ("laneSpaceId", toJson l.laneSpaceId), ("lane", toJson l.lane)]

instance : Json.Decode Location where
  decode := Json.Fields.decode "Location" <|
    Location.mk <$> .orElse "cloud" none <*> .orElse "region" none <*> .orElse "zone" none
      <*> .orElse "cluster" none <*> .orElse "ip" none <*> .orElse "liveSpaceId" none
      <*> .orElse "unitRuleId" none <*> .orElse "unit" none <*> .orElse "cell" none
      <*> .orElse "laneSpaceId" none <*> .orElse "lane" none

end Location

namespace AppService

instance : ToJson AppService where
  toJson s := .obj [
    ("name", toJson s.name), ("group", toJson s.group), ("meta", toJson s.metadata)]

instance : Json.Decode AppService where
  decode := Json.Fields.decode "AppService" <|
    AppService.mk <$> .orElse "name" none <*> .orElse "group" none <*> .orElse "meta" .empty

end AppService

namespace Application

instance : ToJson Application where
  toJson a := .obj [
    ("name", toJson a.name), ("instance", toJson a.instanceId), ("service", toJson a.service),
    ("location", toJson a.location), ("meta", toJson a.metadata)]

/-- The identifier is optional, but `null` is none. -/
def decode : Json.Doc → Except Json.Problem Application :=
  Json.Fields.decode "Application" <|
    Application.mk <$> .required "name"
      <*> .one "instance" (fun d => some <$> Json.decode d) (some none) (some none)
      <*> .orElse "service" none <*> .orElse "location" none <*> .orElse "meta" .empty

instance : Json.Decode Application := ⟨decode⟩

end Application

def Label.given (key : String) (value : Option String) : List (String × String) :=
  value.toList.map (key, ·)

namespace Location

def zoneLabels (l : Location) : List (String × String) :=
  Label.given Label.cloud l.cloud ++ Label.given Label.region l.region ++
    Label.given Label.zone l.zone ++ Label.given Label.cluster l.cluster

def liveLabels (l : Location) : List (String × String) :=
  if l.isLiveless then []
  else
    Label.given Label.liveSpaceId l.liveSpaceId ++ Label.given Label.ruleId l.unitRuleId ++
      Label.given Label.unit l.unit ++ Label.given Label.cell l.cell

def laneLabels (l : Location) : List (String × String) :=
  if l.isLaneless then []
  else Label.given Label.laneSpaceId l.laneSpaceId ++ Label.given Label.lane l.lane

def labels (l : Location) : List (String × String) := l.zoneLabels ++ l.liveLabels ++ l.laneLabels

end Location

namespace Application

def undrawn : String := "<random>"

def identityLabels (a : Application) : List (String × String) :=
  [(Label.application, a.name),
   (Label.instanceId, a.instanceId.elim undrawn toString)]

def locationLabels (a : Application) : List (String × String) := a.location.elim [] Location.labels

def serviceLabels (a : Application) : List (String × String) :=
  a.service.elim [] fun s => Label.given Label.serviceGroup s.group ++ s.metadata.entries

def registryLabels (a : Application) : List (String × String) :=
  a.identityLabels ++ a.locationLabels ++ a.serviceLabels

def syncLabels (a : Application) : List (String × String) :=
  a.identityLabels ++ a.locationLabels ++
    Label.given Label.instanceIp (a.location.bind (·.ip)) ++
    Label.given Label.agentVersion (a.metadata.get? Label.agentVersion)

end Application

end Turnpike
