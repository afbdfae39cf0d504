/-!
The icons that are always there, and the catalog of cloud icons that is loaded on demand. A catalog
lists names and titles; each name stands in it once.
-/

namespace ArchDiagram.Icon

/-- The icon drawn when there is no better one. -/
def generic : String := "Generic"

/-- Names of icons with their titles, each name once. -/
structure Catalog where
  icons : List (String × String)
  distinct : (icons.map (·.1)).Nodup

namespace Catalog

def names (c : Catalog) : List String :=
  c.icons.map (·.1)

instance : EmptyCollection Catalog where
  emptyCollection := { icons := [], distinct := .nil }

@[simp] theorem names_empty : names ∅ = [] :=
  rfl

/-- The icons with `icon` in the place of the one that has its name. -/
def replace (icons : List (String × String)) (icon : String × String) : List (String × String) :=
  icons.map fun i => if i.1 == icon.1 then icon else i

/-- A new title changes no name. -/
theorem map_fst_replace (icons : List (String × String)) (icon : String × String) :
    (replace icons icon).map (·.1) = icons.map (·.1) := by
  rw [replace, List.map_map]
  apply List.map_congr_left
  intro i _
  by_cases h : i.1 = icon.1 <;> simp [h]

/-- An icon with a new name can be put behind all others. -/
theorem nodup_concat (c : Catalog) {icon : String × String} (h : icon.1 ∉ c.names) :
    ((c.icons ++ [icon]).map (·.1)).Nodup := by
  rw [List.map_append, List.nodup_append]
  refine ⟨c.distinct, by simp, ?_⟩
  intro name hname last hlast heq
  obtain rfl : last = icon.1 := List.mem_singleton.mp hlast
  exact h (heq ▸ hname)

/-- A repeated name takes the new title and keeps its place. -/
def insert (c : Catalog) (icon : String × String) : Catalog :=
  if h : icon.1 ∈ c.names then
    { icons := replace c.icons icon
      distinct := map_fst_replace c.icons icon ▸ c.distinct }
  else
    { icons := c.icons ++ [icon]
      distinct := c.nodup_concat h }

def ofPairs (pairs : List (String × String)) : Catalog :=
  pairs.foldl insert ∅

end Catalog

def base : Catalog where
  icons := [
    ("Generic", "Generic component"),
    ("User", "User / client"),
    ("Api", "API endpoint"),
    ("Server", "Application server"),
    ("Database", "Database"),
    ("LoadBalancer", "Load balancer"),
    ("Lock", "Authentication / security"),
    ("Cache", "Cache"),
    ("Queue", "Message queue"),
    ("Storage", "Object storage"),
    ("Cloud", "Cloud"),
    ("Browser", "Web browser"),
    ("Mobile", "Mobile client"),
    ("Function", "Serverless function"),
    ("Gateway", "Gateway")]
  distinct := by decide

def isBase (name : String) : Bool :=
  base.names.contains name

def cloud : Catalog where
  icons := [
    ("AwsEc2", "Amazon EC2"),
    ("AwsLambda", "AWS Lambda"),
    ("AwsS3", "Amazon S3"),
    ("AwsRds", "Amazon RDS"),
    ("AwsDynamoDb", "Amazon DynamoDB"),
    ("AwsSqs", "Amazon SQS"),
    ("AwsSns", "Amazon SNS"),
    ("AwsApiGateway", "Amazon API Gateway"),
    ("AwsCloudFront", "Amazon CloudFront"),
    ("AwsElb", "Elastic Load Balancing"),
    ("AwsEks", "Amazon EKS"),
    ("AwsElastiCache", "Amazon ElastiCache"),
    ("AzureVm", "Azure Virtual Machines"),
    ("AzureFunctions", "Azure Functions"),
    ("AzureBlob", "Azure Blob Storage"),
    ("AzureSql", "Azure SQL Database"),
    ("AzureCosmosDb", "Azure Cosmos DB"),
    ("AzureServiceBus", "Azure Service Bus"),
    ("AzureAks", "Azure Kubernetes Service"),
    ("GcpComputeEngine", "Compute Engine"),
    ("GcpCloudFunctions", "Cloud Functions"),
    ("GcpCloudStorage", "Cloud Storage"),
    ("GcpCloudSql", "Cloud SQL"),
    ("GcpPubSub", "Pub/Sub"),
    ("GcpGke", "Google Kubernetes Engine"),
    ("GcpBigQuery", "BigQuery")]
  distinct := by decide

end ArchDiagram.Icon
