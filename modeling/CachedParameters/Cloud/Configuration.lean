/-!
# Where cloud services are

A `Configuration` says in which region the services run and under which address they are reached
(`AwsBackendsBuilder`). All clients are made from one configuration, so that no two of them can work
in different places. Setting a region or an address again replaces what was set before.
-/

namespace CachedParameters.Cloud

/-- Where services run and how they are reached: the region, and the address that all requests go to
in place of the ones of the services. Neither has to be given, and then the services decide. -/
structure Configuration where
  region : Option String := none
  endpoint : Option String := none
  deriving DecidableEq, Repr

namespace Configuration

/-- The kinds of clients that are made from a configuration, one for each store. -/
inductive ClientKind where
  | parameters | secrets | configurations | table
  deriving DecidableEq, Repr

/-- Sets the region that all clients work in, in place of one set before. -/
def withRegion (c : Configuration) (region : String) : Configuration :=
  { c with region := some region }

/-- Sets the address that all requests go to, in place of one set before. -/
def withEndpoint (c : Configuration) (endpoint : String) : Configuration :=
  { c with endpoint := some endpoint }

/-- The region that a client works in. It is the same for all of them, whatever the order in which
region and address were set. -/
def clientRegion (c : Configuration) : ClientKind → Option String
  | .parameters | .secrets | .configurations | .table => c.region

end Configuration

end CachedParameters.Cloud
