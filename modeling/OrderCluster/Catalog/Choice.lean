import OrderCluster.Catalog.Remote
import OrderCluster.Catalog.Stock

/-!
# The catalog of a node

A node keeps stock itself or asks a catalog on another machine.
-/

namespace OrderCluster

inductive CatalogChoice where
  | stock (stock : Stock)
  | remote (catalog : RemoteCatalog)

instance : Catalog CatalogChoice where
  change
    | .stock stock, request =>
      let (answer, stock) := Catalog.change stock request
      (answer, .stock stock)
    | .remote catalog, request =>
      let (answer, catalog) := Catalog.change catalog request
      (answer, .remote catalog)

end OrderCluster
