/-
# Standard principals

The principals that every registry holds: the service that owns the system's
objects, and three roles in the global namespace. Their identifiers are reserved.

Key definitions: `Standard.systemService`, `Standard.authenticatedRole`,
`Standard.adminRole`, `Standard.anonymousRole`, `Standard.all`.
-/
import AccessRegistry.Principal

namespace AccessRegistry.Standard

/-- The namespace of the standard roles. -/
def globalNamespace : Identifier := .system 1

/-- The service that owns the system's objects. -/
def systemPrincipal : Principal := ⟨.service, "system"⟩

/-- A role of the global namespace. -/
def role (counter : UInt16) (name title description : String) : Registration :=
  ⟨.under [globalNamespace] (.system counter), ⟨.role, name⟩, title, description⟩

/-- The role of everyone who signed in. -/
def authenticatedRole : Registration :=
  role 2 "authenticated_user" "Authenticated users" "Every signed-in user"

/-- The role of administrators. -/
def adminRole : Registration := role 3 "admin" "Administrators" ""

/-- The role of everyone who did not sign in. -/
def anonymousRole : Registration := role 4 "anonymous_user" "Anonymous users" ""

/-- The service itself. -/
def systemService : Registration :=
  ⟨.single (.system 5), systemPrincipal, "System", "Internal service identity"⟩

/-- The standard principals in the order in which they are made. -/
def all : List Registration := [systemService, authenticatedRole, adminRole, anonymousRole]

end AccessRegistry.Standard
