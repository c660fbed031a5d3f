/-
Routes kept in memory, by application and path.

A change has an outcome and leaves a directory, also when it fails.
-/
import AppRoutes.Error
import AppRoutes.Route.Basic

namespace AppRoutes

/-- The routes of one application by path. -/
abbrev RouteMap : Type := SortedMap Route

structure Directory where
  apps : SortedMap RouteMap := ∅
  deriving DecidableEq, Inhabited

namespace Directory

def appNotFound : Error := .ofStatus 404 "App not found"

def routeNotFound : Error := .ofStatus 404 "Route not found"

def pathIsImmutable : Error := .ofStatus 400 "Could not update route - path is immutable"

def pathIsMissing : Error := .ofStatus 400 "Missing route path"

def routeExists : Error := .ofStatus 409 "Route already exists"

def routes? (directory : Directory) (app : String) : Option RouteMap := directory.apps.get? app

def route? (directory : Directory) (app path : String) : Option Route := do
  (← directory.routes? app).get? path

/-- The routes of an application, none if it is not registered. -/
def routesOf (directory : Directory) (app : String) : RouteMap := (directory.routes? app).getD ∅

def setRoutes (directory : Directory) (app : String) (routes : RouteMap) : Directory :=
  ⟨directory.apps.insert app routes⟩

def addApp (directory : Directory) (app : String) : Directory :=
  directory.setRoutes app (directory.routesOf app)

/-- The route as it is kept for an application and a path. -/
def keep (app path : String) (route : Route) : Route :=
  { route with appName := app, path }

/-- Put a route under the path that it names, whatever stands there. -/
def addRoute (directory : Directory) (app : String) (route : Route) : Directory :=
  directory.setRoutes app ((directory.routesOf app).insert route.path (keep app route.path route))

def fetch (directory : Directory) (app path : String) : Except Error Route :=
  match directory.routes? app with
  | none => .error appNotFound
  | some routes =>
    match routes.get? path with
    | none => .error routeNotFound
    | some route => .ok route

/-- Put a route in the place of an existing one; it may not name another path. -/
def replace (directory : Directory) (app path : String) (route : Route) :
    Except Error Route × Directory :=
  if !route.path.isEmpty && route.path ≠ path then (.error pathIsImmutable, directory)
  else
    match directory.routes? app with
    | none => (.error appNotFound, directory)
    | some routes =>
      if routes.contains path then
        let kept := keep app path route
        (.ok kept, directory.setRoutes app (routes.insert path kept))
      else (.error routeNotFound, directory)

/-- Add a route under a path that is free.  The application is registered first, whether or not
the path is free. -/
def create (directory : Directory) (app : String) (route : Route) :
    Except Error Route × Directory :=
  if route.path.isEmpty then (.error pathIsMissing, directory)
  else
    let registered := directory.addApp app
    if (registered.routesOf app).contains route.path then (.error routeExists, registered)
    else (.ok (keep app route.path route), registered.addRoute app route)

/-- The routes of an application in the order of their paths. -/
def list (directory : Directory) (app : String) : Except Error (List Route) :=
  match directory.routes? app with
  | none => .error appNotFound
  | some routes => .ok (routes.entries.map (·.2))

def delete (directory : Directory) (app path : String) : Except Error Unit × Directory :=
  match directory.routes? app with
  | none => (.error appNotFound, directory)
  | some routes =>
    if routes.contains path then (.ok (), directory.setRoutes app (routes.erase path))
    else (.error routeNotFound, directory)

end Directory
end AppRoutes
