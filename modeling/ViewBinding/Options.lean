import ViewBinding.Diagnostic.Code
import ViewBinding.ClassName

namespace ViewBinding

/-- A namespace closed to hosts, given by the start of its names, with the dot. -/
structure ReservedNamespace where
  start : String
  owner : String
  code : Code
  deriving DecidableEq, Repr

structure Options where
  suffix : String
  viewType : ClassName
  listenerType : ClassName
  companionInterface : ClassName
  reserved : List ReservedNamespace
  registry : Option ClassName
  deriving DecidableEq, Repr

namespace Options

def viewClass : ClassName := .ofTopLevel "android.view" "View"

def standard : Options where
  suffix := "$$Proxy"
  viewType := viewClass
  listenerType := viewClass.nested "OnClickListener"
  companionInterface := .ofTopLevel "proxytool.api" "IProxy"
  reserved := [⟨"android.", "Android framework", .frameworkHost⟩,
    ⟨"java.", "Java framework", .coreHost⟩]
  registry := some (.ofTopLevel "proxytool.generated" "ProxyRegistry")

/-- The companion of a host is a class of the host's package, named by the host's binary name. -/
def companionName (o : Options) (host : ClassName) : ClassName :=
  .ofTopLevel host.package (host.binary ++ o.suffix)

def reservedNamespace? (o : Options) (host : ClassName) : Option ReservedNamespace :=
  o.reserved.find? fun n => host.inNamespace n.start

end Options

end ViewBinding
